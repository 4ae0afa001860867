import EntityStore.Value.Bounds

/-!
# Values and bounds

The order of values is partial, but it is an order both ways round: of two values at most one is
less than the other.  Nothing else is used here about an order, so the laws of bounds hold also where
it is neither total nor transitive.

* `ValueType.compare?_swap`: two values compare as they do the other way round, if at all, so that
  one is greater if and only if the other is less (`compare?_eq_gt`), and then it is not less itself
  (`not_lt_of_lt`).
* `Bounds.not_max_lt_min`: bounds are never the wrong way round, whatever they were made of.
* `Bounds.allows_clamp`: what is brought into them passes neither.
* `Bounds.Confines`, `Bounds.confines_between`: what bounds do to values, whatever ends they were
  made of.
-/

namespace EntityStore

theorem compareLists_swap {α : Type} {order : α → α → Option Ordering}
    (h : ∀ x y, order y x = (order x y).map Ordering.swap) (xs ys : List α) :
    compareLists order ys xs = (compareLists order xs ys).map Ordering.swap := by
  induction xs generalizing ys with
  | nil => cases ys <;> rfl
  | cons x xs ih =>
      cases ys with
      | nil => rfl
      | cons y ys =>
          unfold compareLists
          rw [h x y]
          cases order x y with
          | none => rfl
          | some decided =>
              cases decided with
              | lt => rfl
              | eq => exact ih ys
              | gt => rfl

namespace ValueType

variable [CustomTypes]

/-- Two values compare as they do the other way round. -/
theorem compare?_swap (t : ValueType) (x y : t.Carrier) :
    t.compare? y x = (t.compare? x y).map Ordering.swap := by
  induction t with
  | word type =>
      unfold compare?
      cases type.rank? x with
      | none => cases type.rank? y <;> rfl
      | some a =>
          cases type.rank? y with
          | none => rfl
          | some b => exact congrArg some Std.OrientedCmp.eq_swap
  | bool => exact congrArg some (Std.OrientedCmp.eq_swap (α := Bool))
  | text => exact congrArg some (Std.OrientedCmp.eq_swap (α := String))
  | list element ih => exact compareLists_swap ih x y
  | custom key => exact (CustomTypes.type key).compare?_swap x y

variable {t : ValueType} {x y : t.Carrier}

theorem compare?_eq_gt : t.compare? x y = some .gt ↔ y < x := by
  show _ ↔ t.compare? y x = some .lt
  rw [compare?_swap t x y, Option.map_eq_some_iff]
  constructor
  · exact fun h => ⟨.gt, h, rfl⟩
  · rintro ⟨decided, h, hswap⟩
    cases decided with
    | gt => exact h
    | lt => cases hswap
    | eq => cases hswap

/-- Of two values at most one is less. -/
theorem not_lt_of_lt (h : x < y) : ¬ y < x := by
  intro hback
  have hgt : t.compare? x y = some .gt := compare?_eq_gt.2 hback
  cases h.symm.trans hgt

instance (t : ValueType) : Std.Asymm (α := t.Carrier) (· < ·) := ⟨fun _ _ => not_lt_of_lt⟩

end ValueType

namespace Bounds

variable {α : Type} [LT α] {bounds : Bounds α} {a b x : α}

/-- A value that passes neither bound. -/
structure Allows (bounds : Bounds α) (x : α) : Prop where
  /-- It is not less than the lower bound. -/
  min : ¬ x < bounds.min
  /-- It is not greater than the upper bound. -/
  max : ¬ bounds.max < x

variable [DecidableLT α]

/-- The ends become the bounds, in one order or the other. -/
theorem between_eq_or (a b : α) : between a b = ⟨a, b⟩ ∨ between a b = ⟨b, a⟩ := by
  unfold between
  split
  · exact Or.inr rfl
  · exact Or.inl rfl

/-- A value that passes neither bound is kept. -/
theorem Allows.clamp_eq (h : bounds.Allows x) : bounds.clamp x = x := by
  unfold clamp
  rw [if_neg h.min, if_neg h.max]

/-- Any other value becomes a bound that it passed. -/
theorem clamp_of_not_allows (h : ¬ bounds.Allows x) :
    (x < bounds.min ∧ bounds.clamp x = bounds.min) ∨
      (bounds.max < x ∧ bounds.clamp x = bounds.max) := by
  unfold clamp
  split
  · rename_i hmin
    exact Or.inl ⟨hmin, rfl⟩
  · rename_i hmin
    have hmax : bounds.max < x := Decidable.not_not.1 fun hmax => h ⟨hmin, hmax⟩
    exact Or.inr ⟨hmax, if_pos hmax⟩

/-! ## Asymmetric orders -/

variable [Std.Asymm (α := α) (· < ·)]

/-- Ends that are comparable may be given in either order. -/
theorem between_comm (h : a < b ∨ b < a) : between b a = between a b := by
  unfold between
  rcases h with hlt | hlt
  · rw [if_pos hlt, if_neg (Std.not_gt_of_lt hlt)]
  · rw [if_pos hlt, if_neg (Std.not_gt_of_lt hlt)]

/-- Bounds are never the wrong way round. -/
theorem not_max_lt_min (low high : α) : ¬ (between low high).max < (between low high).min := by
  unfold between
  split
  · rename_i hswapped
    exact Std.not_gt_of_lt hswapped
  · assumption

/-- What is brought into bounds passes neither. -/
theorem allows_clamp (h : ¬ bounds.max < bounds.min) (x : α) :
    bounds.Allows (bounds.clamp x) := by
  by_cases hallows : bounds.Allows x
  · rwa [hallows.clamp_eq]
  · rcases clamp_of_not_allows hallows with ⟨-, hmin⟩ | ⟨-, hmax⟩
    · rw [hmin]
      exact ⟨Std.lt_irrefl, h⟩
    · rw [hmax]
      exact ⟨h, Std.lt_irrefl⟩

/-! ## Bounds made of two ends -/

/-- What bounds made of two ends do to values. -/
structure Confines (bounds : Bounds α) (a b : α) : Prop where
  /-- The bounds are the two ends, in one order or the other. -/
  ends : bounds = ⟨a, b⟩ ∨ bounds = ⟨b, a⟩
  /-- The lower bound is not greater than the upper one. -/
  ordered : ¬ bounds.max < bounds.min
  /-- No value passes a bound once it is clamped. -/
  within : ∀ x, bounds.Allows (bounds.clamp x)
  /-- A value is kept if and only if it passes no bound itself. -/
  kept : ∀ x, bounds.clamp x = x ↔ bounds.Allows x
  /-- Any other value becomes a bound, and one that it passed. -/
  moved : ∀ x, ¬ bounds.Allows x →
    (x < bounds.min ∧ bounds.clamp x = bounds.min) ∨ (bounds.max < x ∧ bounds.clamp x = bounds.max)
  /-- Clamping once is enough. -/
  settled : ∀ x, bounds.clamp (bounds.clamp x) = bounds.clamp x
  /-- Two comparable ends may be given in either order. -/
  swapped : a < b ∨ b < a → ∀ x, (between b a).clamp x = bounds.clamp x

/-- Whatever their ends, bounds confine every value, if of two values at most one is less than the
other. -/
theorem confines_between (a b : α) : (between a b).Confines a b := by
  have hordered := not_max_lt_min a b
  have hwithin := allows_clamp hordered
  refine
    { ends := between_eq_or a b, ordered := hordered, within := hwithin, kept := ?_,
      moved := fun _ => clamp_of_not_allows, settled := fun x => (hwithin x).clamp_eq, swapped := ?_ }
  · intro x
    constructor
    · intro hkept
      rw [← hkept]
      exact hwithin x
    · exact Allows.clamp_eq
  · intro hcomparable x
    rw [between_comm hcomparable]

section

attribute [local instance] CustomTypes.none

/-- Two single-precision numbers: one, and a pattern that is not a number. -/
def lesser : (ValueType.list (.word .binary32)).Carrier :=
  [(0x3F800000 : BitVec 32), (0x7FC00000 : BitVec 32)]

/-- One single-precision number: two. -/
def greater : (ValueType.list (.word .binary32)).Carrier := [(0x40000000 : BitVec 32)]

/-- Two single-precision numbers: one and seven. -/
def unordered : (ValueType.list (.word .binary32)).Carrier :=
  [(0x3F800000 : BitVec 32), (0x40E00000 : BitVec 32)]

/-- Two lists as ends, the greater one first.  The third list is kept, because it is not comparable
with the lesser one. -/
theorem confines_between_lists :
    (between greater lesser).Confines greater lesser ∧
      between greater lesser = ⟨lesser, greater⟩ ∧
      (between greater lesser).clamp unordered = unordered := by
  have hconfines := confines_between greater lesser
  refine ⟨hconfines, if_pos (by decide +kernel), (hconfines.kept unordered).2 ?_⟩
  constructor
  · decide +kernel
  · decide +kernel

end

end Bounds

end EntityStore
