import EntityStore.Number.Binary

/-!
# The order of binary numbers

A pattern that is a number has a rank, an integer, and a finite one has a value, a rational.  The
program compares ranks, and what it means is values.

* `BinaryFormat.magnitudeValue_lt`: greater magnitude patterns have greater values.
* `BinaryFormat.value?_eq_map_rank?`: the value of a finite pattern depends on its rank only.
* `BinaryFormat.rankValue_lt_iff`, `BinaryFormat.rankValue_le_iff`: and in the order of the ranks.
* `Binary64.less_iff`, `Binary64.lessOrEqual_iff`: so comparing two finite doubles compares their
  values.
-/

namespace EntityStore

theorem twoPow_pos (k : Int) : 0 < twoPow k := by
  unfold twoPow
  split
  · exact Rat.natCast_pos.2 (Nat.pow_pos (by decide))
  · have hpos : (0 : Rat) < (Nat.pow 2 (-k).toNat : Nat) :=
      Rat.natCast_pos.2 (Nat.pow_pos (by decide))
    rw [Rat.lt_div_iff hpos]
    grind

/-- The next power is twice as great. -/
theorem twoPow_succ (k : Int) : twoPow (k + 1) = 2 * twoPow k := by
  unfold twoPow
  rcases Int.lt_trichotomy k (-1) with hlow | rfl | hhigh
  · rw [if_neg (by omega), if_neg (by omega)]
    have hexponent : (-k).toNat = (-(k + 1)).toNat + 1 := by omega
    have hpower : Nat.pow 2 (-k).toNat = Nat.pow 2 (-(k + 1)).toNat * 2 := by
      rw [hexponent]
      rfl
    have hpos : (0 : Rat) < (Nat.pow 2 (-(k + 1)).toNat : Nat) :=
      Rat.natCast_pos.2 (Nat.pow_pos (by decide))
    rw [hpower, Rat.natCast_mul]
    generalize ((Nat.pow 2 (-(k + 1)).toNat : Nat) : Rat) = p at hpos
    grind
  · decide +kernel
  · rw [if_pos (by omega), if_pos (by omega)]
    have hexponent : (k + 1).toNat = k.toNat + 1 := by omega
    have hpower : Nat.pow 2 (k + 1).toNat = 2 * Nat.pow 2 k.toNat := by
      rw [hexponent, Nat.mul_comm]
      rfl
    rw [hpower, Rat.natCast_mul]
    rfl

namespace BinaryFormat

variable (f : BinaryFormat)

theorem leadingUnit_pos : 0 < f.leadingUnit := Nat.pow_pos (by decide)

/-! ## Magnitudes -/

/-- A magnitude pattern without exponent bits. -/
theorem magnitudeValue_of_lt {m : Nat} (h : m < f.leadingUnit) :
    f.magnitudeValue m = (m : Rat) * twoPow f.lowestExponent := by
  unfold magnitudeValue scaled
  simp only [Nat.div_eq_of_lt h, Nat.mod_eq_of_lt h, if_true]

/-- A magnitude pattern with an exponent: the leading bit is implied. -/
theorem magnitudeValue_of_exponent {exponent fraction : Nat} (h : fraction < f.leadingUnit) :
    f.magnitudeValue ((exponent + 1) * f.leadingUnit + fraction) =
      ((f.leadingUnit + fraction : Nat) : Rat) * twoPow (f.lowestExponent + exponent) := by
  have hpos := f.leadingUnit_pos
  have hdiv : ((exponent + 1) * f.leadingUnit + fraction) / f.leadingUnit = exponent + 1 := by
    rw [Nat.mul_comm, Nat.mul_add_div hpos, Nat.div_eq_of_lt h, Nat.add_zero]
  have hmod : ((exponent + 1) * f.leadingUnit + fraction) % f.leadingUnit = fraction := by
    rw [Nat.mul_comm, Nat.mul_add_mod, Nat.mod_eq_of_lt h]
  unfold magnitudeValue scaled
  simp only [hdiv, hmod, if_neg (Nat.succ_ne_zero exponent), Nat.add_sub_cancel]

/-- The next magnitude pattern is greater. -/
theorem magnitudeValue_lt_succ (m : Nat) : f.magnitudeValue m < f.magnitudeValue (m + 1) := by
  have hpos := f.leadingUnit_pos
  have hmore : ∀ (a b : Nat) (k : Int), a < b → (a : Rat) * twoPow k < (b : Rat) * twoPow k :=
    fun a b k hab => Rat.mul_lt_mul_of_pos_right (Rat.natCast_lt_natCast.2 hab) (twoPow_pos k)
  have hsplit := Nat.div_add_mod m f.leadingUnit
  have hfraction := Nat.mod_lt m hpos
  generalize m % f.leadingUnit = fraction at hsplit hfraction
  rw [Nat.mul_comm] at hsplit
  cases hexponent : m / f.leadingUnit with
  | zero =>
      rw [hexponent, Nat.zero_mul, Nat.zero_add] at hsplit
      subst hsplit
      rw [f.magnitudeValue_of_lt hfraction]
      rcases Nat.lt_or_ge (fraction + 1) f.leadingUnit with hroom | hcarry
      · rw [f.magnitudeValue_of_lt hroom]
        exact hmore _ _ _ (Nat.lt_succ_self _)
      · -- the carry sets the first exponent bit, which has the same weight
        have hnext : fraction + 1 = (0 + 1) * f.leadingUnit + 0 := by omega
        rw [hnext, f.magnitudeValue_of_exponent hpos]
        have hzero : f.lowestExponent + ((0 : Nat) : Int) = f.lowestExponent := Int.add_zero _
        rw [hzero]
        exact hmore _ _ _ hfraction
  | succ exponent =>
      rw [hexponent] at hsplit
      subst hsplit
      rw [f.magnitudeValue_of_exponent hfraction]
      rcases Nat.lt_or_ge (fraction + 1) f.leadingUnit with hroom | hcarry
      · rw [Nat.add_assoc, f.magnitudeValue_of_exponent hroom]
        exact hmore _ _ _ (by omega)
      · -- the carry doubles the weight of every bit
        have hnext : (exponent + 1) * f.leadingUnit + fraction + 1 =
            (exponent + 1 + 1) * f.leadingUnit + 0 := by
          have hdistribute : (exponent + 1 + 1) * f.leadingUnit =
              (exponent + 1) * f.leadingUnit + f.leadingUnit := Nat.succ_mul _ _
          omega
        have hdouble : f.lowestExponent + ((exponent + 1 : Nat) : Int) =
            f.lowestExponent + exponent + 1 := by omega
        rw [hnext, f.magnitudeValue_of_exponent hpos, hdouble, twoPow_succ, ← Rat.mul_assoc]
        refine Rat.mul_lt_mul_of_pos_right ?_ (twoPow_pos _)
        have htwice : f.leadingUnit + fraction < (f.leadingUnit + 0) * 2 := by omega
        have hcast := Rat.natCast_lt_natCast.2 htwice
        rwa [Rat.natCast_mul] at hcast

theorem magnitudeValue_lt {m n : Nat} (h : m < n) : f.magnitudeValue m < f.magnitudeValue n := by
  induction n with
  | zero => exact absurd h (Nat.not_lt_zero m)
  | succ n ih =>
      rcases Nat.lt_or_eq_of_le (Nat.lt_succ_iff.1 h) with hlt | rfl
      · exact Std.lt_trans (ih hlt) (f.magnitudeValue_lt_succ n)
      · exact f.magnitudeValue_lt_succ m

theorem magnitudeValue_zero : f.magnitudeValue 0 = 0 := by
  rw [f.magnitudeValue_of_lt f.leadingUnit_pos]
  exact Rat.zero_mul _

/-! ## Ranks -/

/-- The value of the finite numbers of a rank. -/
def rankValue (rank : Int) : Rat :=
  if rank < 0 then -f.magnitudeValue rank.natAbs else f.magnitudeValue rank.natAbs

/-- The value of a finite pattern depends on its rank only; both zeros have the value zero. -/
theorem value?_eq_map_rank? {bits : Nat} (h : f.isFinite bits = true) :
    f.value? bits = (f.rank? bits).map f.rankValue := by
  have hnumber : f.isNaN bits = false := by
    unfold isFinite at h
    unfold isNaN
    have hlt := of_decide_eq_true h
    exact decide_eq_false (by omega)
  unfold value? rank?
  rw [if_pos h, hnumber, if_neg Bool.false_ne_true, Option.map_some]
  refine congrArg some ?_
  unfold rankValue
  generalize f.magnitude bits = m
  cases f.isNegative bits with
  | false =>
      rw [if_neg Bool.false_ne_true, if_neg Bool.false_ne_true, if_neg (by omega), Int.natAbs_natCast]
  | true =>
      rw [if_pos rfl, if_pos rfl, Int.natAbs_neg, Int.natAbs_natCast]
      by_cases hzero : m = 0
      · subst hzero
        rw [f.magnitudeValue_zero]
        rfl
      · rw [if_pos (by omega)]

theorem rankValue_lt {i j : Int} (h : i < j) : f.rankValue i < f.rankValue j := by
  have hnonneg : ∀ m, 0 ≤ f.magnitudeValue m := by
    intro m
    rcases Nat.eq_zero_or_pos m with rfl | hpos
    · exact Std.le_of_eq f.magnitudeValue_zero.symm
    · have hlt := f.magnitudeValue_lt hpos
      rw [f.magnitudeValue_zero] at hlt
      exact Rat.le_of_lt hlt
  unfold rankValue
  split
  · rename_i hi
    split
    · rename_i hj
      -- below zero the order is turned round
      exact Rat.neg_lt_neg (f.magnitudeValue_lt (by omega))
    · have hpos : 0 < f.magnitudeValue i.natAbs := by
        have hlt := f.magnitudeValue_lt (m := 0) (n := i.natAbs) (by omega)
        rwa [f.magnitudeValue_zero] at hlt
      have hright := hnonneg j.natAbs
      grind
  · rename_i hi
    rw [if_neg (by omega)]
    exact f.magnitudeValue_lt (by omega)

theorem rankValue_lt_iff {i j : Int} : f.rankValue i < f.rankValue j ↔ i < j := by
  constructor
  · intro h
    rcases Int.lt_trichotomy i j with hlt | rfl | hgt
    · exact hlt
    · exact absurd h Rat.lt_irrefl
    · exact absurd (Std.lt_trans h (f.rankValue_lt hgt)) Rat.lt_irrefl
  · exact f.rankValue_lt

theorem rankValue_le_iff {i j : Int} : f.rankValue i ≤ f.rankValue j ↔ i ≤ j := by
  rw [← Rat.not_lt, f.rankValue_lt_iff, Int.not_lt]

/-- A number whose rank lies between those of the infinities is finite. -/
theorem isFinite_of_rank? {bits : Nat} {rank : Int} (h : f.rank? bits = some rank)
    (hlow : -(f.infinite : Int) < rank) (hhigh : rank < f.infinite) : f.isFinite bits = true := by
  unfold rank? at h
  split at h
  · cases h
  · have hrank := Option.some.inj h
    unfold isFinite
    split at hrank <;> exact decide_eq_true (by omega)

end BinaryFormat

namespace Binary64

variable {x y : Binary64} {a b : Rat}

theorem isFinite_of_value? (h : x.value? = some a) : x.isFinite = true := by
  unfold value? BinaryFormat.value? at h
  split at h
  · assumption
  · cases h

/-- A value comes from a rank. -/
theorem exists_rank_of_value? (h : x.value? = some a) :
    ∃ i, x.rank? = some i ∧ BinaryFormat.binary64.rankValue i = a := by
  have hmap := BinaryFormat.binary64.value?_eq_map_rank? (isFinite_of_value? h)
  exact Option.map_eq_some_iff.1 (hmap.symm.trans h)

/-- Comparing two finite doubles compares their values. -/
theorem less_iff (hx : x.value? = some a) (hy : y.value? = some b) : x.less y = true ↔ a < b := by
  obtain ⟨i, hi, rfl⟩ := exists_rank_of_value? hx
  obtain ⟨j, hj, rfl⟩ := exists_rank_of_value? hy
  unfold less
  rw [hi, hj, BinaryFormat.rankValue_lt_iff]
  exact decide_eq_true_iff

theorem lessOrEqual_iff (hx : x.value? = some a) (hy : y.value? = some b) :
    x.lessOrEqual y = true ↔ a ≤ b := by
  obtain ⟨i, hi, rfl⟩ := exists_rank_of_value? hx
  obtain ⟨j, hj, rfl⟩ := exists_rank_of_value? hy
  unfold lessOrEqual
  rw [hi, hj, BinaryFormat.rankValue_le_iff]
  exact decide_eq_true_iff

theorem exists_value?_of_isFinite (h : x.isFinite = true) : ∃ a, x.value? = some a := by
  unfold value? BinaryFormat.value?
  exact ⟨_, if_pos h⟩

theorem value?_one : (ofRat 1).value? = some 1 := by decide +kernel

theorem value?_zero : (ofRat 0).value? = some 0 := by decide +kernel

/-- A number between zero and one is finite. -/
theorem isFinite_of_between (hlow : (ofRat 0).less x = true)
    (hhigh : x.lessOrEqual (ofRat 1) = true) : x.isFinite = true := by
  have hzero : (ofRat 0).rank? = some 0 := by decide +kernel
  have hone : (ofRat 1).rank? = some 0x3FF0000000000000 := by decide +kernel
  unfold less at hlow
  unfold lessOrEqual at hhigh
  rw [hzero] at hlow
  rw [hone] at hhigh
  cases hrank : x.rank? with
  | none =>
      rw [hrank] at hlow
      cases hlow
  | some i =>
      rw [hrank] at hlow hhigh
      have hpositive : 0 < i := of_decide_eq_true hlow
      have hbelow : i ≤ 0x3FF0000000000000 := of_decide_eq_true hhigh
      have hinfinite : (BinaryFormat.binary64.infinite : Int) = 0x7FF0000000000000 := by
        decide +kernel
      refine BinaryFormat.binary64.isFinite_of_rank? hrank ?_ ?_
      · omega
      · omega

end Binary64

end EntityStore
