import Mathlib.Data.List.Nodup
import Mathlib.Data.List.Perm.Subperm
import Mathlib.Data.Nat.Find
import Mathlib.Data.Nat.ModEq
import EntityStore.Number.Limits
import EntityStore.Proofs.Manager.Cycle

/-!
# The next id in cyclic order

The ids of the range are arranged in a circle, and an allocation goes round it from the id after the
one that was issued last.  It takes the first id that is not live, and it is refused when it would go
all the way round.

* `turn`: the ids in that order.  `Ranged.turn_surj`, `turn_inj`: every id of the range has
  one place in it.
* `le_size_of_turns`: a search that has passed so many ids has seen so many live ones, so it
  ends before it has tried one id more than are live (`Ranged.search_turn`).
* `Seeks`: the search without a number of tries, which is the loop "while the candidate is live, go on
  to the next one".
* `word_following`: the next id is the same when it is computed with thirty-two bits.
* `allocates_next`: what the next allocation does after any calls.
-/

namespace EntityStore

namespace Allocator

variable {a : Allocator} {c e x : EntityId} {i j n : Nat}

/-! ## Places in the circle -/

/-- How far above the start of the range the search starts: just above the id that was issued last,
and at the start of the range if none was. -/
def offset (a : Allocator) : Nat :=
  match a.lastIssued with
  | some e => e + 1 - a.first
  | none => 0

/-- The ids of the range in cyclic order, from the one after the id that was issued last. -/
def turn (a : Allocator) (n : Nat) : EntityId := a.first + (a.offset + n) % a.space

theorem Ranged.space_pos (h : a.Ranged) : 0 < a.space := by
  have hordered := h.ordered
  unfold space EntityId at *
  omega

theorem Ranged.turn_mem (h : a.Ranged) (n : Nat) : a.first ≤ a.turn n ∧ a.turn n ≤ a.last := by
  have hordered := h.ordered
  have hplace := Nat.mod_lt (a.offset + n) h.space_pos
  unfold turn space EntityId at *
  omega

/-- The id after the one at some place has the next place. -/
theorem Ranged.following_turn (h : a.Ranged) (n : Nat) :
    a.following (a.turn n) = a.turn (n + 1) := by
  have hordered := h.ordered
  have hspace : a.space = a.last + 1 - a.first := rfl
  have hplace := Nat.mod_lt (a.offset + n) h.space_pos
  have hnext : (a.offset + (n + 1)) % a.space = ((a.offset + n) % a.space + 1) % a.space := by
    rw [Nat.mod_add_mod, Nat.add_assoc]
  unfold turn following
  rw [hnext]
  generalize (a.offset + n) % a.space = place at *
  unfold EntityId at *
  by_cases hend : place + 1 = a.space
  · -- the circle closes
    rw [hend, Nat.mod_self, if_neg (by omega)]
    omega
  · rw [Nat.mod_eq_of_lt (by omega), if_pos (by omega)]
    omega

/-- The search starts at the first place. -/
theorem Ranged.turn_zero (h : a.Ranged) : a.turn 0 = a.start := by
  have hordered := h.ordered
  unfold turn offset start
  cases hlast : a.lastIssued with
  | none =>
      rw [Nat.zero_mod]
      rfl
  | some e =>
      have hissued := h.issued e hlast
      by_cases hend : e = a.last
      · have hround : e + 1 - a.first + 0 = a.space := by
          rw [hend]
          rfl
        dsimp only
        rw [hround, Nat.mod_self]
        unfold following EntityId at *
        rw [if_neg (by omega)]
        omega
      · dsimp only
        unfold following space EntityId at *
        rw [if_pos (by omega), Nat.mod_eq_of_lt (by omega)]
        omega

/-- No id has two places on one round. -/
theorem turn_inj (hi : i < a.space) (hj : j < a.space) (heq : a.turn i = a.turn j) :
    i = j := by
  have hsame : a.offset + i ≡ a.offset + j [MOD a.space] := Nat.add_left_cancel heq
  exact (Nat.ModEq.add_left_cancel' a.offset hsame).eq_of_lt_of_lt hi hj

/-- Every id of the range has a place. -/
theorem Ranged.turn_surj (h : a.Ranged) (hx : a.first ≤ x ∧ x ≤ a.last) :
    ∃ n, n < a.space ∧ a.turn n = x := by
  have hfrom := Nat.mod_lt a.offset h.space_pos
  have hto : x - a.first < a.space := by
    unfold space EntityId at *
    omega
  have hplace : ∀ n, (a.offset % a.space + n) % a.space = x - a.first → a.turn n = x := by
    intro n hn
    unfold turn
    rw [← Nat.mod_add_mod, hn]
    exact Nat.add_sub_cancel' hx.1
  unfold EntityId at *
  by_cases hbefore : a.offset % a.space ≤ x - a.first
  · refine ⟨x - a.first - a.offset % a.space, by omega, hplace _ ?_⟩
    rw [Nat.add_sub_cancel' hbefore, Nat.mod_eq_of_lt hto]
  · refine ⟨x - a.first + a.space - a.offset % a.space, by omega, hplace _ ?_⟩
    have hround : a.offset % a.space + (x - a.first + a.space - a.offset % a.space) =
        x - a.first + a.space := by omega
    rw [hround, Nat.add_mod_right, Nat.mod_eq_of_lt hto]

/-! ## How many ids are live -/

theorem nodup_live (a : Allocator) : a.live.toList.Nodup :=
  a.live.ascending.imp fun hlt => Nat.ne_of_lt hlt

theorem nodup_turns (hn : n ≤ a.space) : ((List.range n).map a.turn).Nodup := by
  apply List.nodup_range.map_on
  intro i hi j hj heq
  rw [List.mem_range] at hi hj
  exact turn_inj (by omega) (by omega) heq

/-- As many ids are live as live ones have been passed. -/
theorem le_size_of_turns (hn : n ≤ a.space) (hlive : ∀ j, j < n → a.turn j ∈ a.live) :
    n ≤ a.live.size := by
  have hsub : (List.range n).map a.turn ⊆ a.live.toList := by
    intro x hx
    obtain ⟨j, hj, rfl⟩ := List.mem_map.1 hx
    exact hlive j (List.mem_range.1 hj)
  have hlength := (List.subperm_of_subset (nodup_turns hn) hsub).length_le
  rw [List.length_map, List.length_range] at hlength
  exact hlength

/-- As many ids are live as there are in the range exactly when all of them are. -/
theorem Ranged.full_iff (h : a.Ranged) :
    a.space ≤ a.live.size ↔ ∀ e, a.first ≤ e → e ≤ a.last → e ∈ a.live := by
  constructor
  · intro hfull e hfirst hlast
    have hsub : a.live.toList ⊆ (List.range a.space).map a.turn := by
      intro x hx
      obtain ⟨j, hj, rfl⟩ := h.turn_surj (h.live x hx)
      exact List.mem_map_of_mem (List.mem_range.2 hj)
    have hperm : a.live.toList.Perm ((List.range a.space).map a.turn) := by
      refine (List.subperm_of_subset a.nodup_live hsub).perm_of_length_le ?_
      rw [List.length_map, List.length_range]
      exact hfull
    obtain ⟨j, hj, rfl⟩ := h.turn_surj ⟨hfirst, hlast⟩
    exact hperm.mem_iff.2 (List.mem_map_of_mem (List.mem_range.2 hj))
  · intro hall
    apply le_size_of_turns (Nat.le_refl a.space)
    intro j _
    exact hall _ (h.turn_mem j).1 (h.turn_mem j).2

/-! ## The search -/

/-- The search without a number of tries: while the candidate is live, go on to the next id. -/
inductive Seeks (a : Allocator) : EntityId → EntityId → Prop where
  /-- The candidate is free. -/
  | here {c : EntityId} (hfree : c ∉ a.live) : Seeks a c c
  /-- The candidate is live. -/
  | next {c e : EntityId} (hlive : c ∈ a.live) (hrest : Seeks a (a.following c) e) : Seeks a c e

/-- The search finds one id at most. -/
theorem Seeks.unique (h : a.Seeks c e) (g : a.Seeks c x) : e = x := by
  induction h with
  | here hfree =>
      cases g with
      | here => rfl
      | next hlive => exact absurd hlive hfree
  | next hlive _ ih =>
      cases g with
      | here hfree => exact absurd hlive hfree
      | next _ hrest => exact ih hrest

theorem seeks_of_search {tries : Nat} (h : a.search tries c = some e) : a.Seeks c e := by
  induction tries generalizing c with
  | zero => cases h
  | succ tries ih =>
      unfold search at h
      split at h
      · rename_i hlive
        exact .next hlive (ih h)
      · rename_i hfree
        obtain rfl := Option.some.inj h
        exact .here hfree

/-- A search that passes live ids finds the free one after them, if it may try that many. -/
theorem Ranged.search_turn (h : a.Ranged) {tries k : Nat} (htries : k < tries)
    (hlive : ∀ j, j < k → a.turn (n + j) ∈ a.live) (hfree : a.turn (n + k) ∉ a.live) :
    a.search tries (a.turn n) = some (a.turn (n + k)) := by
  induction k generalizing n tries with
  | zero =>
      obtain ⟨tries, rfl⟩ := Nat.exists_eq_add_one_of_ne_zero (Nat.ne_of_gt htries)
      unfold search
      exact if_neg hfree
  | succ k ih =>
      obtain ⟨tries, rfl⟩ := Nat.exists_eq_add_one_of_ne_zero (Nat.ne_of_gt (Nat.zero_lt_of_lt htries))
      have hshift : ∀ j, n + 1 + j = n + (j + 1) := by
        intro j
        omega
      have hhere : a.turn n ∈ a.live := hlive 0 (Nat.succ_pos k)
      unfold search
      rw [if_pos hhere, h.following_turn, ← hshift k]
      apply ih (by omega)
      · intro j hj
        rw [hshift]
        exact hlive (j + 1) (by omega)
      · rw [hshift]
        exact hfree

/-- Where some id of the range is not live, one of them comes first. -/
theorem Ranged.first_free (h : a.Ranged) (hx : a.first ≤ x ∧ x ≤ a.last) (hfree : x ∉ a.live) :
    ∃ n, n < a.space ∧ a.turn n ∉ a.live ∧ ∀ j, j < n → a.turn j ∈ a.live := by
  obtain ⟨place, hplace, rfl⟩ := h.turn_surj hx
  have hexists : ∃ n, a.turn n ∉ a.live := ⟨place, hfree⟩
  refine ⟨Nat.find hexists, ?_, Nat.find_spec hexists, ?_⟩
  · exact Nat.lt_of_le_of_lt (Nat.find_min' hexists hfree) hplace
  · intro j hj
    exact Classical.not_not.1 (Nat.find_min hexists hj)

/-! ## The next id in a machine word -/

/-- The id that follows another one, computed with thirty-two bits, where a sum wraps around. -/
def wordFollowing (first last e : BitVec 32) : BitVec 32 := if e < last then e + 1 else first

/-- No sum wraps around: an id of the range is followed by the same id, whether it is computed with
thirty-two bits or exactly. -/
theorem word_following (hbound : a.last ≤ maxWord32) (hordered : a.first ≤ a.last)
    (he : e ≤ a.last) :
    (wordFollowing (.ofNat 32 a.first) (.ofNat 32 a.last) (.ofNat 32 e)).toNat = a.following e := by
  have hmax : maxWord32 = 4294967295 := rfl
  have hsmall : ∀ x, x ≤ a.last → x % 2 ^ 32 = x := by
    intro x hx
    exact Nat.mod_eq_of_lt (by unfold EntityId at *; omega)
  unfold wordFollowing following
  simp only [BitVec.lt_def, BitVec.toNat_ofNat, hsmall e he, hsmall a.last (Nat.le_refl _)]
  split
  · rename_i hlt
    have hone : (1 : BitVec 32).toNat = 1 := rfl
    rw [BitVec.toNat_add, BitVec.toNat_ofNat, hone, hsmall e he]
    exact hsmall (e + 1) hlt
  · rw [BitVec.toNat_ofNat]
    exact hsmall a.first hordered

/-! ## The next allocation -/

/-- The id that a call issues, if it does. -/
def issued? (a : Allocator) : Call → Option EntityId
  | .allocate => a.allocate.toOption.map Prod.fst
  | .release _ => none

/-- The ids that some calls issue, in order. -/
def issuedBy (a : Allocator) : List Call → List EntityId
  | [] => []
  | call :: rest => (a.issued? call).toList ++ issuedBy (a.serve call) rest

theorem lastIssued_serve (a : Allocator) (call : Call) :
    (a.serve call).lastIssued = (a.issued? call).or a.lastIssued := by
  unfold issued? serve
  cases call with
  | allocate =>
      cases hresult : a.allocate with
      | ok issued => exact (congrArg lastIssued (allocate_eq_ok hresult).2)
      | error _ => rfl
  | release _ => rfl

/-- The id that an allocator holds as issued last is the last one of those that were issued. -/
theorem lastIssued_run (a : Allocator) (calls : List Call) :
    (a.run calls).lastIssued = (a.issuedBy calls).getLast?.or a.lastIssued := by
  induction calls generalizing a with
  | nil => rfl
  | cons call rest ih =>
      have hrest := ih (a.serve call)
      rw [lastIssued_serve, ← Option.or_assoc] at hrest
      unfold issuedBy
      rw [List.getLast?_append]
      have htoList : (a.issued? call).toList.getLast? = a.issued? call := by
        cases a.issued? call <;> rfl
      rw [htoList]
      exact hrest

/-- An allocation issues the first id in cyclic order that is not live. -/
structure IssuesNext (a : Allocator) (e : EntityId) : Prop where
  /-- The id is not live, and every id before it on the way round is. -/
  nearest : ∃ n, n < a.space ∧ a.turn n = e ∧ e ∉ a.live ∧ ∀ j, j < n → a.turn j ∈ a.live
  /-- The search ends with it, and with nothing else. -/
  seeks : ∀ x, a.Seeks a.start x ↔ x = e
  /-- It is returned, it is the one id that becomes live, and it was issued last from now on. -/
  answer : a.allocate = .ok (e, { a with lastIssued := some e, live := a.live.insert e })

theorem Ranged.issuesNext (h : a.Ranged) (hx : a.first ≤ x ∧ x ≤ a.last) (hfree : x ∉ a.live) :
    ∃ e, a.IssuesNext e := by
  obtain ⟨n, hn, hnext, hlive⟩ := h.first_free hx hfree
  have hfound : a.search (a.live.size + 1) a.start = some (a.turn n) := by
    have hpassed := le_size_of_turns (Nat.le_of_lt hn) hlive
    rw [← h.turn_zero, ← Nat.zero_add n]
    apply h.search_turn (by omega)
    · intro j hj
      rw [Nat.zero_add]
      exact hlive j hj
    · rw [Nat.zero_add]
      exact hnext
  have hroom : ¬ a.space ≤ a.live.size := by
    rw [h.full_iff]
    intro hall
    exact hfree (hall x hx.1 hx.2)
  have hseeks := seeks_of_search hfound
  refine ⟨a.turn n, ⟨n, hn, rfl, hnext, hlive⟩, ?_, ?_⟩
  · intro x
    constructor
    · intro hx
      exact hx.unique hseeks
    · rintro rfl
      exact hseeks
  · unfold Allocator.allocate
    dsimp only
    rw [if_neg hroom, hfound]

theorem Ranged.refused_iff (h : a.Ranged) :
    a.allocate = .error (.idsExhausted a.live.size) ↔
      ∀ e, a.first ≤ e → e ≤ a.last → e ∈ a.live := by
  constructor
  · intro hrefused e hfirst hlast
    apply Classical.byContradiction
    intro hfree
    obtain ⟨_, hnext⟩ := h.issuesNext ⟨hfirst, hlast⟩ hfree
    rw [hnext.answer] at hrefused
    cases hrefused
  · intro hall
    unfold Allocator.allocate
    exact if_pos (h.full_iff.2 hall)

/-- What is so of an allocator after some calls, and what its next allocation does. -/
structure Succession (config : ManagerConfig) (calls : List Call) (a : Allocator) : Prop where
  /-- The live ids lie in the range. -/
  live : ∀ e ∈ a.live, config.first ≤ e ∧ e ≤ config.last
  /-- The cyclic order starts after the id that the calls have issued last. -/
  cursor : a.lastIssued = ((ofConfig config).issuedBy calls).getLast?
  /-- The allocation is refused if and only if every id of the range is live. -/
  refused : a.allocate = .error (.idsExhausted a.live.size) ↔
    ∀ e, config.first ≤ e → e ≤ config.last → e ∈ a.live
  /-- When it is refused, then for this cause, and nothing changes. -/
  unchanged : ∀ cause, a.allocate = .error cause →
    cause = .idsExhausted a.live.size ∧ a.serve .allocate = a
  /-- Otherwise it issues the first free id. -/
  issues : ∀ x, config.first ≤ x → x ≤ config.last → x ∉ a.live → ∃ e, a.IssuesNext e
  /-- Every step of the search is the same with thirty-two bits, which the range may exhaust. -/
  bounded : config.last ≤ maxWord32 → ∀ e, e ≤ config.last →
    (wordFollowing (.ofNat 32 a.first) (.ofNat 32 a.last) (.ofNat 32 e)).toNat = a.following e

/-- After any allocations and releases the next allocation issues the first id that is not live in
the cyclic order after the last issued id, and it is refused only when there is no such id. -/
theorem allocates_next (config : ManagerConfig) (hrange : config.first ≤ config.last)
    (calls : List Call) : Succession config calls ((ofConfig config).run calls) := by
  have h := (ranged_ofConfig hrange).run calls
  obtain ⟨hfirst, hlast⟩ : ((ofConfig config).run calls).first = config.first ∧
      ((ofConfig config).run calls).last = config.last := range_run (ofConfig config) calls
  have hcursor := lastIssued_run (ofConfig config) calls
  generalize (ofConfig config).run calls = a at *
  rw [← hfirst, ← hlast] at hrange
  constructor
  · rw [← hfirst, ← hlast]
    exact h.live
  · rw [hcursor]
    exact Option.or_none
  · rw [← hfirst, ← hlast]
    exact h.refused_iff
  · intro cause hcause
    refine ⟨allocate_eq_error hcause, ?_⟩
    unfold serve
    rw [hcause]
  · rw [← hfirst, ← hlast]
    intro x hlow hhigh hfree
    exact h.issuesNext ⟨hlow, hhigh⟩ hfree
  · rw [← hlast]
    intro hbound e he
    exact word_following hbound hrange he

/-- The last id of the range is the largest of thirty-two bits; it was issued last and is released
with the one before it.  The next allocation starts again at the first id, which is live, and issues
the second one. -/
theorem next_past_largest_word :
    let config : ManagerConfig := ⟨4294967293, 4294967295⟩
    let calls : List Call :=
      [.allocate, .allocate, .allocate, .release 4294967295, .release 4294967294]
    config.first ≤ config.last ∧ config.last = maxWord32 ∧
      Succession config calls ((ofConfig config).run calls) ∧
      ((ofConfig config).run calls).IssuesNext 4294967294 := by
  intro config calls
  have hrange : config.first ≤ config.last := by decide
  have hsuccession := allocates_next config hrange calls
  obtain ⟨e, hnext⟩ := hsuccession.issues 4294967294 (by decide) (by decide) (by decide)
  have hissued : ((ofConfig config).run calls).issued? .allocate = some 4294967294 := by decide
  have he : e = 4294967294 := by
    unfold issued? at hissued
    rw [hnext.answer] at hissued
    exact Option.some.inj hissued
  rw [he] at hnext
  exact ⟨hrange, rfl, hsuccession, hnext⟩

end Allocator

end EntityStore
