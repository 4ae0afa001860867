import EntityStore.Proofs.Number.Order
import EntityStore.Store.Config

/-!
# Growth and shrinking of a capacity

What the constraints on a configuration mean, and what its formulas do to a capacity when they are
computed exactly.

* `StoreConfig.Sized`, `sized_of_violation?`: the constraints as inequalities between rationals.
* `enlarged`: a capacity after one growth, rounded up to whole blocks.
  `Sized.shrunk_enlarged`: shrinking undoes one growth, however it was rounded.
* `Sized.sparse_lt_of_whole`, `Sized.sparse_le_of_wide`: when a buffer that is sparse is below the
  expansion threshold of the smaller one.
* `Rung`: the capacities that growth comes through.  `Rung.of_shrunk`: shrinking leads from one to the
  one before, unless that is below the first.
-/

namespace EntityStore

/-- A machine that rounds to whole blocks only and has no more memory than there are addresses. -/
structure Machine.Exact (machine : Machine) : Prop where
  rounding : machine.rounding = Rounding.exact
  memory : machine.memory ≤ maxBufferBytes

namespace StoreConfig

variable {r : Rounding} {c : StoreConfig}

/-- What the constraints on a configuration mean. -/
structure Sized (r : Rounding) (c : StoreConfig) : Prop where
  capacity : 0 < c.expectedCapacity
  growth : 1 < c.growth
  expansion : 0 < c.expansion
  expansion_le : c.expansion ≤ 1
  compacting : 0 ≤ c.compacting
  product : r (c.compacting * c.growth) < c.expansion

theorem sized_of_violation? (h : c.violation? r = none) : c.Sized r := by
  unfold violation? at h
  dsimp only at h
  split at h
  · cases h
  rename_i hcapacity
  split at h
  · cases h
  rename_i hgrowth
  split at h
  · cases h
  rename_i hexpansion
  split at h
  · cases h
  rename_i hcompacting
  split at h
  · cases h
  rename_i hchases
  simp only [Bool.not_eq_true', Bool.not_eq_false, Bool.and_eq_true] at hgrowth hexpansion hcompacting
  -- the numbers compare as their values do, once they are known to be finite
  obtain ⟨growth, hgrowthValue⟩ := Binary64.exists_value?_of_isFinite hgrowth.2
  obtain ⟨expansion, hexpansionValue⟩ := Binary64.exists_value?_of_isFinite
    (Binary64.isFinite_of_between hexpansion.1 hexpansion.2)
  unfold chases at hchases
  cases hcompactingValue : c.compactingThreshold.value? with
  | none =>
      rw [hcompactingValue] at hchases
      exact absurd rfl hchases
  | some compacting =>
      rw [hcompactingValue] at hchases
      dsimp only at hchases
      have hgrowthEq : c.growth = growth := by rw [StoreConfig.growth, hgrowthValue]; rfl
      have hexpansionEq : c.expansion = expansion := by
        rw [StoreConfig.expansion, hexpansionValue]; rfl
      have hcompactingEq : c.compacting = compacting := by
        rw [StoreConfig.compacting, hcompactingValue]; rfl
      refine
        { capacity := Nat.pos_of_ne_zero hcapacity, growth := ?_, expansion := ?_,
          expansion_le := ?_, compacting := ?_, product := ?_ }
      · rw [hgrowthEq]
        exact (Binary64.less_iff Binary64.value?_one hgrowthValue).1 hgrowth.1
      · rw [hexpansionEq]
        exact (Binary64.less_iff Binary64.value?_zero hexpansionValue).1 hexpansion.1
      · rw [hexpansionEq]
        exact (Binary64.lessOrEqual_iff hexpansionValue Binary64.value?_one).1 hexpansion.2
      · rw [hcompactingEq]
        exact (Binary64.lessOrEqual_iff Binary64.value?_zero hcompactingValue).1 hcompacting
      · rw [hcompactingEq]
        exact Rat.not_le.1 fun hle => hchases (decide_eq_true hle)

/-! ## One growth -/

/-- The capacity after one growth that is rounded to whole blocks and not otherwise. -/
def enlarged (c : StoreConfig) (n : Nat) : Nat := (c.growth * n).ceil.toNat

variable {n : Nat}

theorem Sized.growth_pos (h : c.Sized r) : 0 < c.growth := by
  have hgrowth := h.growth
  grind

/-- No growth leaves a capacity as it was. -/
theorem Sized.lt_ceil (h : c.Sized r) (hn : 0 < n) : (n : Int) < (c.growth * n).ceil := by
  rw [Rat.lt_ceil_iff, Rat.intCast_natCast]
  have hpos : (0 : Rat) < n := Rat.natCast_pos.2 hn
  have hmul := Rat.mul_lt_mul_of_pos_right h.growth hpos
  rwa [Rat.one_mul] at hmul

theorem Sized.intCast_enlarged (h : c.Sized r) (hn : 0 < n) :
    (c.enlarged n : Int) = (c.growth * n).ceil := by
  have hlt := h.lt_ceil hn
  unfold enlarged
  omega

theorem Sized.lt_enlarged (h : c.Sized r) (hn : 0 < n) : n < c.enlarged n := by
  have hlt := h.lt_ceil hn
  have hcast := h.intCast_enlarged hn
  omega

theorem Sized.natCast_enlarged (h : c.Sized r) (hn : 0 < n) :
    (c.enlarged n : Rat) = ((c.growth * n).ceil : Rat) := by
  rw [← Rat.intCast_natCast, h.intCast_enlarged hn]

/-- A growth is rounded up. -/
theorem Sized.le_enlarged (h : c.Sized r) (hn : 0 < n) : c.growth * n ≤ c.enlarged n := by
  rw [h.natCast_enlarged hn]
  exact Rat.le_ceil

/-- It is rounded up by less than a block. -/
theorem Sized.enlarged_lt (h : c.Sized r) (hn : 0 < n) :
    (c.enlarged n : Rat) < c.growth * n + 1 := by
  rw [h.natCast_enlarged hn]
  exact Rat.ceil_lt

/-- Shrinking undoes one growth, however it was rounded. -/
theorem Sized.floor_enlarged (h : c.Sized r) (hn : 0 < n) :
    ((c.enlarged n : Rat) / c.growth).floor = n := by
  have hpos := h.growth_pos
  have hgrowth := h.growth
  have hlow := h.le_enlarged hn
  have hhigh := h.enlarged_lt hn
  have hlower : (n : Int) ≤ ((c.enlarged n : Rat) / c.growth).floor := by
    rw [Rat.le_floor_iff, Rat.intCast_natCast, ← Rat.not_lt, Rat.div_lt_iff hpos, Rat.not_lt,
      Rat.mul_comm]
    exact hlow
  have hupper : ((c.enlarged n : Rat) / c.growth).floor < (n : Int) + 1 := by
    rw [Rat.floor_lt_iff, Rat.div_lt_iff hpos, Rat.intCast_add, Rat.intCast_natCast]
    -- the rounding adds less than a block, and one more block before the growth is more than that
    have hsplit : ((n : Rat) + ((1 : Int) : Rat)) * c.growth = c.growth * n + c.growth := by
      rw [Rat.intCast_one, Rat.add_mul, Rat.one_mul, Rat.mul_comm]
    rw [hsplit]
    grind
  omega

/-! ## The formulas of a store, computed exactly -/

theorem saturate_of_le {x : Int} (h : x ≤ maxCount) : saturate x = x.toNat := by
  unfold saturate
  omega

/-- A growth that does not exceed the largest count. -/
theorem Sized.grown_eq (h : c.Sized r) (hn : 0 < n)
    (hsmall : c.grown Rounding.exact n < maxCount) : c.grown Rounding.exact n = c.enlarged n := by
  have hlt := h.lt_ceil hn
  have hvalue : c.grown Rounding.exact n =
      max (saturate (c.growth * n).ceil) (min (n + 1) maxCount) := by
    unfold grown Rounding.exact
    rw [Rat.mul_comm]
    rfl
  rw [hvalue] at hsmall ⊢
  unfold enlarged saturate at *
  omega

theorem Sized.shrunk_enlarged (h : c.Sized r) (hn : 0 < n) (hsmall : n ≤ maxCount) :
    c.shrunk Rounding.exact (c.enlarged n) = n := by
  show saturate ((c.enlarged n : Rat) / c.growth).floor = n
  rw [h.floor_enlarged hn, saturate_of_le (by omega)]
  exact Int.toNat_natCast n

/-- Shrinking makes a capacity smaller. -/
theorem Sized.shrunk_lt (h : c.Sized r) (hn : 0 < n) : c.shrunk Rounding.exact n < n := by
  have hpos : (0 : Rat) < n := Rat.natCast_pos.2 hn
  have hfloor : ((n : Rat) / c.growth).floor < (n : Int) := by
    rw [Rat.floor_lt_iff, Rat.div_lt_iff h.growth_pos, Rat.intCast_natCast]
    have hmul := Rat.mul_lt_mul_of_pos_left h.growth hpos
    rwa [Rat.mul_one] at hmul
  show saturate ((n : Rat) / c.growth).floor < n
  unfold saturate
  omega

theorem isFull_iff (c : StoreConfig) (count capacity : Nat) :
    c.isFull Rounding.exact count capacity = true ↔
      capacity ≤ count ∨ c.expansion * capacity ≤ count := by
  unfold isFull Rounding.exact
  rw [Bool.or_eq_true, decide_eq_true_iff, decide_eq_true_iff]
  exact Iff.rfl

theorem isSparse_iff (c : StoreConfig) (count capacity : Nat) :
    c.isSparse Rounding.exact count capacity = true ↔
      (count : Rat) < c.compacting * capacity := by
  unfold isSparse Rounding.exact
  rw [decide_eq_true_iff]
  exact Iff.rfl

/-! ## The gap between the thresholds -/

/-- A buffer that is sparse before a growth is taken back is below the expansion threshold
afterwards, if the growth came to whole blocks without rounding. -/
theorem Sized.sparse_lt_of_whole (h : c.Sized Rounding.exact) (hn : 0 < n)
    (hwhole : c.growth * n = c.enlarged n) : c.compacting * c.enlarged n < c.expansion * n := by
  rw [← hwhole, ← Rat.mul_assoc]
  exact Rat.mul_lt_mul_of_pos_right h.product (Rat.natCast_pos.2 hn)

/-- So it is, if the gap between the thresholds makes up for the rounding of one block. -/
theorem Sized.sparse_le_of_wide (h : c.Sized Rounding.exact) (hn : c.expectedCapacity ≤ n)
    (hwide : c.compacting ≤ (c.expansion - c.compacting * c.growth) * c.expectedCapacity) :
    c.compacting * c.enlarged n ≤ c.expansion * n := by
  have hpos : 0 < n := Nat.lt_of_lt_of_le h.capacity hn
  have hgap : 0 ≤ c.expansion - c.compacting * c.growth := by
    have hproduct : c.compacting * c.growth < c.expansion := h.product
    grind
  have hrounded : c.compacting * c.enlarged n ≤ c.compacting * (c.growth * n + 1) :=
    Rat.mul_le_mul_of_nonneg_left (Rat.le_of_lt (h.enlarged_lt hpos)) h.compacting
  have hlarge : (c.expansion - c.compacting * c.growth) * c.expectedCapacity ≤
      (c.expansion - c.compacting * c.growth) * n :=
    Rat.mul_le_mul_of_nonneg_left (Rat.natCast_le_natCast.2 hn) hgap
  calc c.compacting * c.enlarged n
      ≤ c.compacting * (c.growth * n + 1) := hrounded
    _ = c.compacting * c.growth * n + c.compacting := by
        rw [Rat.mul_add, Rat.mul_one, Rat.mul_assoc]
    _ ≤ c.compacting * c.growth * n + (c.expansion - c.compacting * c.growth) * n :=
        Rat.add_le_add_left.2 (Rat.le_trans hwide hlarge)
    _ = c.expansion * n := by grind

/-! ## The capacities of a buffer -/

/-- The capacities that a buffer comes through as it grows. -/
inductive Rung (c : StoreConfig) : Nat → Prop where
  | first : Rung c c.expectedCapacity
  | next {n : Nat} (h : Rung c n) : Rung c (c.enlarged n)

theorem Rung.le (h : c.Rung n) (hsized : c.Sized r) : c.expectedCapacity ≤ n := by
  induction h with
  | first => exact Nat.le_refl _
  | next _ ih =>
      have hpos := Nat.lt_of_lt_of_le hsized.capacity ih
      exact Nat.le_trans ih (Nat.le_of_lt (hsized.lt_enlarged hpos))

theorem Rung.pos (h : c.Rung n) (hsized : c.Sized r) : 0 < n :=
  Nat.lt_of_lt_of_le hsized.capacity (h.le hsized)

/-- Shrinking leads to the capacity before the last growth, unless that would be below the first. -/
theorem Rung.of_shrunk (h : c.Rung n) (hsized : c.Sized r) (hsmall : n ≤ maxCount)
    (hfloor : c.expectedCapacity ≤ c.shrunk Rounding.exact n) :
    c.Rung (c.shrunk Rounding.exact n) ∧ n = c.enlarged (c.shrunk Rounding.exact n) := by
  cases h with
  | first => exact absurd hfloor (Nat.not_le_of_lt (hsized.shrunk_lt hsized.capacity))
  | @next m hm =>
      have hpos := hm.pos hsized
      have hbelow := hsized.lt_enlarged hpos
      rw [hsized.shrunk_enlarged hpos (by omega)]
      exact ⟨hm, rfl⟩

end StoreConfig

end EntityStore
