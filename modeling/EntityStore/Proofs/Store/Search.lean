import EntityStore.Store.Basic

/-!
# Where a new block goes

The searches through the buffer, described by what they find.  `holderIn` is the view they are
described in: the holder at a place among some blocks.

* `lt_of_lt_preferredIndex`, `le_of_preferredIndex_le`: the preferred index parts the smaller
  holders from the greater ones.
* `nearestFree_eq_some`, `nearestFree_isSome`: the nearest free block is free, no free block is
  nearer, the lower one of two equally near is taken, and one is found if there is any.
-/

namespace EntityStore

/-- The holder of a block, none when the block is free. -/
def Block.holder? (b : Block) : Option EntityId := if b.isFree then none else some b.tag

/-- The holder at a place among some blocks. -/
def holderIn (blocks : List Block) (i : Nat) : Option EntityId := blocks[i]?.bind Block.holder?

theorem Block.holder?_eq_some {b : Block} {e : EntityId} :
    b.holder? = some e ↔ b.isFree = false ∧ b.tag = e := by
  unfold Block.holder?
  cases b.isFree <;> simp

@[simp] theorem Block.holder?_eq_none {b : Block} : b.holder? = none ↔ b.isFree = true := by
  unfold Block.holder?
  cases b.isFree <;> simp

@[simp] theorem Block.isFree_blank (n : Nat) : (Block.blank n).isFree = true := by
  simp [Block.blank, Block.isFree]

theorem holderIn_eq_some {blocks : List Block} {i : Nat} {e : EntityId} :
    holderIn blocks i = some e ↔ ∃ b, blocks[i]? = some b ∧ b.holder? = some e := by
  simp [holderIn, Option.bind_eq_some_iff]

theorem holderIn_of_getElem? {blocks : List Block} {i : Nat} {b : Block}
    (h : blocks[i]? = some b) : holderIn blocks i = b.holder? := by
  simp [holderIn, h]

theorem holderIn_eq_none_of_length_le {blocks : List Block} {i : Nat} (h : blocks.length ≤ i) :
    holderIn blocks i = none := by
  simp [holderIn, List.getElem?_eq_none h]

theorem lt_length_of_holderIn {blocks : List Block} {i : Nat} {e : EntityId}
    (h : holderIn blocks i = some e) : i < blocks.length := by
  by_cases hi : i < blocks.length
  · exact hi
  · rw [holderIn_eq_none_of_length_le (Nat.le_of_not_lt hi)] at h
    cases h

/-- Two buffers that agree at a place have the same holder there. -/
theorem holderIn_congr {blocks others : List Block} {i j : Nat} (h : blocks[i]? = others[j]?) :
    holderIn blocks i = holderIn others j := by
  simp [holderIn, h]

/-! ## The last block that passes a test -/

theorem countThroughLast_le_length (test : Block → Bool) (blocks : List Block) :
    countThroughLast test blocks ≤ blocks.length := by
  induction blocks with
  | nil => simp [countThroughLast]
  | cons b rest ih =>
      unfold countThroughLast
      split
      · split <;> simp
      · rename_i n hn
        simp only [List.length_cons]
        omega

/-- Beyond the count no block passes the test. -/
theorem countThroughLast_beyond {test : Block → Bool} {blocks : List Block} {i : Nat} {b : Block}
    (hi : countThroughLast test blocks ≤ i) (hb : blocks[i]? = some b) : test b = false := by
  induction blocks generalizing i with
  | nil => simp at hb
  | cons head rest ih =>
      unfold countThroughLast at hi
      cases i with
      | zero =>
          have hhead : head = b := by simpa using hb
          subst hhead
          split at hi
          · cases htest : test head with
            | false => rfl
            | true => simp [htest] at hi
          · omega
      | succ i =>
          have hrest : rest[i]? = some b := by simpa using hb
          refine ih ?_ hrest
          split at hi <;> omega

/-- The last counted block passes the test. -/
theorem countThroughLast_last {test : Block → Bool} {blocks : List Block} {n : Nat}
    (h : countThroughLast test blocks = n + 1) : ∃ b, blocks[n]? = some b ∧ test b = true := by
  induction blocks generalizing n with
  | nil => simp [countThroughLast] at h
  | cons head rest ih =>
      unfold countThroughLast at h
      split at h
      · cases htest : test head with
        | false => simp [htest] at h
        | true =>
            have hn : n = 0 := by simpa [htest] using h.symm
            subst hn
            exact ⟨head, rfl, htest⟩
      · rename_i m hm
        obtain ⟨b, hb, htest⟩ := ih hm
        have hn : n = m + 1 := by omega
        subst hn
        exact ⟨b, by simpa using hb, htest⟩

/-- The holders stand in ascending order. -/
def Ascending (blocks : List Block) : Prop :=
  ∀ i j x y, i < j → holderIn blocks i = some x → holderIn blocks j = some y → x < y

/-- In ascending order every holder has one block. -/
theorem Ascending.place_unique {blocks : List Block} (h : Ascending blocks) {i j : Nat}
    {e : EntityId} (hi : holderIn blocks i = some e) (hj : holderIn blocks j = some e) : i = j := by
  rcases Nat.lt_trichotomy i j with hlt | heq | hgt
  · exact absurd (h i j e e hlt hi hj) (Nat.lt_irrefl e)
  · exact heq
  · exact absurd (h j i e e hgt hj hi) (Nat.lt_irrefl e)

/-- The highest occupied place among some blocks, if there is one. -/
def IsHighest (blocks : List Block) : Option Nat → Prop
  | none => ∀ i, holderIn blocks i = none
  | some h => holderIn blocks h ≠ none ∧ ∀ i, h < i → holderIn blocks i = none

namespace Store

variable [CustomTypes] {s : Store}

theorem blockAt_eq_occupied {i : Nat} {e : EntityId} :
    s.blockAt i = .occupied e ↔ holderIn s.blocks i = some e := by
  rw [holderIn_eq_some]
  unfold blockAt
  cases s.blocks[i]? with
  | none => simp
  | some b => cases hfree : b.isFree <;> simp [Block.holder?, hfree]

theorem isFreeAt_iff {i : Nat} :
    s.isFreeAt i = true ↔ i < s.capacity ∧ holderIn s.blocks i = none := by
  unfold isFreeAt blockAt holderIn capacity
  by_cases hi : i < s.blocks.length
  · rw [List.getElem?_eq_getElem hi]
    cases hfree : s.blocks[i].isFree <;> simp [Block.holder?, hfree, hi]
  · simp [hi]

/-- A walk up to the highest occupied block misses no holder. -/
theorem holderIn_occupiedRange (h : IsHighest s.blocks s.highest) (i : Nat) :
    holderIn s.occupiedRange i = holderIn s.blocks i := by
  unfold occupiedRange
  cases hhigh : s.highest with
  | none =>
      rw [hhigh] at h
      rw [h i]
      simp [holderIn]
  | some top =>
      rw [hhigh] at h
      by_cases hi : i < top + 1
      · exact holderIn_congr (List.getElem?_take_of_lt hi)
      · rw [h.2 i (by omega)]
        apply holderIn_eq_none_of_length_le
        rw [List.length_take]
        omega

/-- The preferred index of an entity lies within the buffer or just past it. -/
theorem preferredIndex_le_capacity (e : EntityId) : s.preferredIndex e ≤ s.capacity := by
  have hcount := countThroughLast_le_length (fun b => b.isOccupied && decide (b.tag < e))
    s.occupiedRange
  have hrange : s.occupiedRange.length ≤ s.blocks.length := by
    unfold occupiedRange
    split
    · simp
    · rw [List.length_take]
      omega
  exact Nat.le_trans hcount hrange

/-- The holders below the preferred index are smaller, in a buffer in ascending order. -/
theorem lt_of_lt_preferredIndex (hhigh : IsHighest s.blocks s.highest)
    (hasc : Ascending s.blocks) {e x : EntityId} {i : Nat} (hi : i < s.preferredIndex e)
    (hx : holderIn s.blocks i = some x) : x < e := by
  cases hcount : s.preferredIndex e with
  | zero => omega
  | succ last =>
      obtain ⟨b, hb, htest⟩ := countThroughLast_last hcount
      -- the last block that counted is smaller, and whatever stands before it is smaller still
      have hlast : holderIn s.blocks last = some b.tag := by
        rw [← holderIn_occupiedRange hhigh, holderIn_eq_some]
        refine ⟨b, hb, Block.holder?_eq_some.2 ⟨?_, rfl⟩⟩
        simpa [Block.isOccupied] using (Bool.and_eq_true_iff.1 htest).1
      have hlt : b.tag < e := by simpa using (Bool.and_eq_true_iff.1 htest).2
      rcases Nat.lt_or_ge i last with hbelow | hat
      · exact Nat.lt_trans (hasc i last x b.tag hbelow hx hlast) hlt
      · have hsame : i = last := by omega
        subst hsame
        have hxb : x = b.tag := by
          rw [hx] at hlast
          exact Option.some.inj hlast
        exact hxb ▸ hlt

/-- The holders from the preferred index on are not smaller. -/
theorem le_of_preferredIndex_le (hhigh : IsHighest s.blocks s.highest) {e x : EntityId} {i : Nat}
    (hi : s.preferredIndex e ≤ i) (hx : holderIn s.blocks i = some x) : e ≤ x := by
  rw [← holderIn_occupiedRange hhigh, holderIn_eq_some] at hx
  obtain ⟨b, hb, hholder⟩ := hx
  obtain ⟨hoccupied, htag⟩ := Block.holder?_eq_some.1 hholder
  have htest := countThroughLast_beyond hi hb
  simp only [Block.isOccupied, hoccupied, Bool.not_false, Bool.true_and,
    decide_eq_false_iff_not] at htest
  exact htag ▸ Nat.le_of_not_lt htest

end Store

/-! ## The nearest free block -/

/-- How far two places are from each other. -/
def gap (i j : Nat) : Nat := (i - j) + (j - i)

/-- A search upward through consecutive numbers finds the first success. -/
theorem findSome?_range'_eq_some {β : Type} {find : Nat → Option β} {start n : Nat} {found : β}
    (h : (List.range' start n).findSome? find = some found) :
    ∃ d, start ≤ d ∧ d < start + n ∧ find d = some found ∧
      ∀ c, start ≤ c → c < d → find c = none := by
  induction n generalizing start with
  | zero => simp at h
  | succ n ih =>
      rw [List.range'_succ, List.findSome?_cons] at h
      cases hstart : find start with
      | some first =>
          rw [hstart] at h
          obtain rfl := Option.some.inj h
          exact ⟨start, Nat.le_refl start, by omega, hstart, fun c hc hlt => by omega⟩
      | none =>
          rw [hstart] at h
          obtain ⟨d, hle, hlt, hfind, hbefore⟩ := ih h
          refine ⟨d, by omega, by omega, hfind, fun c hc hcd => ?_⟩
          rcases Nat.eq_or_lt_of_le hc with rfl | hc
          · exact hstart
          · exact hbefore c hc hcd

namespace Store

variable [CustomTypes] {s : Store}

/-- The free block at one distance from a place, the lower one first. -/
def probe (s : Store) (target distance : Nat) : Option Nat :=
  if distance ≤ target && s.isFreeAt (target - distance) then some (target - distance)
  else if s.isFreeAt (target + distance) then some (target + distance)
  else none

/-- A probe finds a free block at its distance, and the lower one if there are two. -/
theorem probe_eq_some {target distance free : Nat} (h : s.probe target distance = some free) :
    s.isFreeAt free = true ∧ gap free target = distance ∧
      ∀ i, s.isFreeAt i = true → gap i target = distance → free ≤ i := by
  unfold probe at h
  split at h
  · rename_i hbelow
    obtain rfl := Option.some.inj h
    obtain ⟨hwithin, hfree⟩ := Bool.and_eq_true_iff.1 hbelow
    have hwithin : distance ≤ target := by simpa using hwithin
    refine ⟨hfree, by unfold gap; omega, fun i _ hdistance => ?_⟩
    unfold gap at hdistance
    omega
  · rename_i hbelow
    split at h
    · rename_i hfree
      obtain rfl := Option.some.inj h
      refine ⟨hfree, by unfold gap; omega, fun i hi hdistance => ?_⟩
      rcases Nat.lt_or_ge i target with hlow | hhigh
      · have hplace : target - distance = i := by unfold gap at hdistance; omega
        have hwithin : distance ≤ target := by unfold gap at hdistance; omega
        exact absurd (by simp [hplace, hwithin, hi]) hbelow
      · unfold gap at hdistance
        omega
    · cases h

/-- Where a probe finds nothing, no free block is at its distance. -/
theorem probe_eq_none {target distance i : Nat} (h : s.probe target distance = none)
    (hi : s.isFreeAt i = true) : gap i target ≠ distance := by
  intro hdistance
  unfold probe at h
  rcases Nat.lt_or_ge i target with hlow | hhigh
  · have hplace : target - distance = i := by unfold gap at hdistance; omega
    have hwithin : distance ≤ target := by unfold gap at hdistance; omega
    simp [hplace, hwithin, hi] at h
  · have hplace : target + distance = i := by unfold gap at hdistance; omega
    rw [hplace, hi] at h
    split at h <;> cases h

theorem nearestFree_eq (s : Store) (target : Nat) :
    s.nearestFree target =
      if s.isFreeAt target then some target
      else (List.range' 1 s.capacity).findSome? (s.probe target) :=
  rfl

/-- The nearest free block is free, no free block is nearer, and of two equally near ones it is
the lower. -/
theorem nearestFree_eq_some {target free : Nat} (h : s.nearestFree target = some free) :
    s.isFreeAt free = true ∧ ∀ i, s.isFreeAt i = true →
      gap free target < gap i target ∨ gap free target = gap i target ∧ free ≤ i := by
  rw [nearestFree_eq] at h
  split at h
  · rename_i hfree
    obtain rfl := Option.some.inj h
    refine ⟨hfree, fun i _ => ?_⟩
    unfold gap
    omega
  · rename_i htarget
    obtain ⟨d, hpos, hle, hfind, hbefore⟩ := findSome?_range'_eq_some h
    obtain ⟨hfree, hdistance, hlower⟩ := probe_eq_some hfind
    refine ⟨hfree, fun i hi => ?_⟩
    have hne : gap i target ≠ 0 := by
      intro hzero
      have hsame : i = target := by unfold gap at hzero; omega
      exact htarget (hsame ▸ hi)
    -- nearer than the hit: the search would have stopped there; as near: the lower one comes first
    rcases Nat.lt_trichotomy (gap i target) d with hnear | hsame | hfar
    · exact absurd rfl (probe_eq_none (hbefore (gap i target) (by omega) hnear) hi)
    · exact Or.inr ⟨hdistance.trans hsame.symm, hlower i hi hsame⟩
    · exact Or.inl (by omega)

/-- A free block is found if there is one, from every place within the buffer or just past it. -/
theorem nearestFree_isSome {target i : Nat} (htarget : target ≤ s.capacity)
    (hi : s.isFreeAt i = true) : (s.nearestFree target).isSome = true := by
  have hlt := (isFreeAt_iff.1 hi).1
  cases hfound : s.nearestFree target with
  | some free => rfl
  | none =>
      rw [nearestFree_eq] at hfound
      split at hfound
      · cases hfound
      · rename_i hne
        have hiNe : i ≠ target := fun heq => hne (heq ▸ hi)
        have hrange : gap i target ∈ List.range' 1 s.capacity := by
          rw [List.mem_range'_1]
          unfold gap
          omega
        have hnone := List.findSome?_eq_none_iff.1 hfound (gap i target) hrange
        exact absurd rfl (probe_eq_none hnone hi)

/-- Between the target and the nearest free block every block is occupied. -/
theorem occupied_between {target free i : Nat} (h : s.nearestFree target = some free)
    (hcap : target ≤ s.capacity)
    (hi : target ≤ i ∧ i < free ∨ free < i ∧ i < target) : holderIn s.blocks i ≠ none := by
  obtain ⟨hfree, hnearest⟩ := nearestFree_eq_some h
  have hlt := (isFreeAt_iff.1 hfree).1
  intro hnone
  have hfar := hnearest i (isFreeAt_iff.2 ⟨by omega, hnone⟩)
  unfold gap at hfar
  omega

end Store

end EntityStore
