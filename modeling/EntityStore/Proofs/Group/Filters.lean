import EntityStore.Proofs.Group.Refresh
import Mathlib.Data.List.Perm.Subperm

/-!
# Filters are pairs of sets

A filter keeps each of its kinds once, and it is compared with two lists of kinds by counting: the
list that is looked up is cleared of repetitions, and then it must be as long as that of the filter
and have no kind that the filter has not.

* `sameKinds_iff`: lists compared in this way have the same kinds, whatever their order and however
  often a kind is repeated.
* `Filter.sameAs_iff`: so a filter is found by the two sets that it was made from.
-/

namespace EntityStore

/-- Two lists have the same kinds. -/
def SameSet (kinds others : List KindId) : Prop := ∀ k, k ∈ kinds ↔ k ∈ others

section Sets

variable {kinds others more distinct : List KindId} {k : KindId}

theorem SameSet.symm (h : SameSet kinds others) : SameSet others kinds := fun k => (h k).symm

theorem SameSet.trans (h : SameSet kinds others) (g : SameSet others more) : SameSet kinds more :=
  fun k => (h k).trans (g k)

/-- What is left of a list has its kinds, and each of them once. -/
theorem distinctKinds_spec (kinds : List KindId) :
    (distinctKinds kinds).Nodup ∧ SameSet (distinctKinds kinds) kinds := by
  -- the kinds that were found so far stay, and the others are added behind them
  have hfold : ∀ found : List KindId, found.Nodup →
      (kinds.foldl (fun found k => if k ∈ found then found else found ++ [k]) found).Nodup ∧
        ∀ k, k ∈ kinds.foldl (fun found k => if k ∈ found then found else found ++ [k]) found ↔
          k ∈ found ∨ k ∈ kinds := by
    induction kinds with
    | nil => exact fun found hfound => ⟨hfound, fun k => by simp⟩
    | cons j rest ih =>
        intro found hfound
        rw [List.foldl_cons]
        by_cases hj : j ∈ found
        · rw [if_pos hj]
          obtain ⟨hnodup, hmem⟩ := ih found hfound
          refine ⟨hnodup, fun k => ?_⟩
          rw [hmem, List.mem_cons]
          constructor
          · exact Or.imp id Or.inr
          · rintro (hk | rfl | hk)
            · exact Or.inl hk
            · exact Or.inl hj
            · exact Or.inr hk
        · rw [if_neg hj]
          have hnew : (found ++ [j]).Nodup := by
            refine List.nodup_append.2 ⟨hfound, List.pairwise_singleton _ j, ?_⟩
            rintro a ha b hb rfl
            rw [List.mem_singleton.1 hb] at ha
            exact hj ha
          obtain ⟨hnodup, hmem⟩ := ih (found ++ [j]) hnew
          refine ⟨hnodup, fun k => ?_⟩
          rw [hmem, List.mem_append, List.mem_singleton, List.mem_cons, or_assoc]
  obtain ⟨hnodup, hmem⟩ := hfold [] List.nodup_nil
  exact ⟨hnodup, fun k => (hmem k).trans (by simp)⟩

theorem nodup_distinctKinds (kinds : List KindId) : (distinctKinds kinds).Nodup :=
  (distinctKinds_spec kinds).1

theorem mem_distinctKinds : k ∈ distinctKinds kinds ↔ k ∈ kinds :=
  (distinctKinds_spec kinds).2 k

/-- A list without repetitions is compared with another one as a set. -/
theorem sameKinds_iff (h : distinct.Nodup) :
    sameKinds distinct kinds = true ↔ SameSet distinct kinds := by
  have hnodup := nodup_distinctKinds kinds
  unfold sameKinds
  dsimp only
  rw [Bool.and_eq_true, decide_eq_true_iff, List.all_eq_true]
  constructor
  · rintro ⟨hlength, hsub⟩ k
    have hsubset : distinctKinds kinds ⊆ distinct := fun j hj => of_decide_eq_true (hsub j hj)
    -- as many kinds as the list has, all of them in it: these are all that it has
    have hperm : (distinctKinds kinds).Perm distinct :=
      (hnodup.subperm hsubset).perm_of_length_le (Nat.le_of_eq hlength)
    rw [← hperm.mem_iff, mem_distinctKinds]
  · intro hsame
    have hperm : distinct.Perm (distinctKinds kinds) :=
      (List.perm_ext_iff_of_nodup h hnodup).2 fun k => (hsame k).trans mem_distinctKinds.symm
    exact ⟨hperm.length_eq, fun k hk => decide_eq_true (hperm.mem_iff.2 hk)⟩

end Sets

namespace Filter

variable {f g : Filter} {required forbidden : List KindId} {k : KindId}

/-- A filter that has none of its kinds twice. -/
structure Distinct (f : Filter) : Prop where
  required : f.required.Nodup
  forbidden : f.forbidden.Nodup

/-- Two filters ask for the same kinds and forbid the same kinds. -/
def Agrees (f g : Filter) : Prop := SameSet f.required g.required ∧ SameSet f.forbidden g.forbidden

theorem Agrees.symm (h : f.Agrees g) : g.Agrees f := ⟨h.1.symm, h.2.symm⟩

theorem Agrees.trans {i : Filter} (h : f.Agrees g) (k : g.Agrees i) : f.Agrees i :=
  ⟨h.1.trans k.1, h.2.trans k.2⟩

theorem distinct_of (required forbidden : List KindId) : (Filter.of required forbidden).Distinct :=
  ⟨nodup_distinctKinds required, nodup_distinctKinds forbidden⟩

/-- The filter of two lists asks for the kinds of the one and forbids those of the other. -/
theorem agrees_of (required forbidden : List KindId) :
    (Filter.of required forbidden).Agrees ⟨required, forbidden⟩ :=
  ⟨(distinctKinds_spec required).2, (distinctKinds_spec forbidden).2⟩

theorem mentions_of : (Filter.of required forbidden).mentions k = true ↔
    k ∈ required ++ forbidden := by
  rw [mentions_iff, List.mem_append]
  exact or_congr mem_distinctKinds mem_distinctKinds

/-- A filter is found by its two sets of kinds. -/
theorem sameAs_iff (h : f.Distinct) :
    f.sameAs required forbidden = true ↔ f.Agrees ⟨required, forbidden⟩ := by
  unfold sameAs
  rw [Bool.and_eq_true, sameKinds_iff h.required, sameKinds_iff h.forbidden]
  rfl

end Filter

end EntityStore
