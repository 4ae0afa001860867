import EntityStore.Proofs.Manager.Allocation

/-!
# Ids come back after a full cycle

The search for a free id goes on where the last one ended, passes over live ids, and starts again at
the other end of the range.  So an id that was issued is not issued again before the search has been
everywhere else.

* `ahead c y`: how many steps it is from `c` to `y` in cyclic order.
* `Walk next P c d`: from `c` one comes to `d` by steps to the next id, at least one, and `P` holds of
  every id that one comes to.  `walk_everywhere`: a walk that returns to its start has been at every
  id.
* `walk_of_allocate`, `walk_of_run`: an allocation, and any calls, take the id that was issued last
  along such a walk.
* `reissued_after_cycle`: between two allocations that return the same id every other id of the range
  was passed, because it was issued or because it was live; and the id itself was released.
-/

namespace EntityStore

/-- A walk of at least one step, with a property of every id that it comes to. -/
inductive Walk (next : EntityId → EntityId) (P : EntityId → Prop) (c : EntityId) :
    EntityId → Prop where
  /-- One step. -/
  | first (h : P (next c)) : Walk next P c (next c)
  /-- One step more. -/
  | step {d : EntityId} (hwalk : Walk next P c d) (h : P (next d)) : Walk next P c (next d)

namespace Walk

variable {next : EntityId → EntityId} {P Q : EntityId → Prop} {c d e : EntityId}

theorem mono (h : Walk next P c d) (hPQ : ∀ y, P y → Q y) : Walk next Q c d := by
  induction h with
  | first hP => exact .first (hPQ _ hP)
  | step _ hP ih => exact .step ih (hPQ _ hP)

theorem trans (h : Walk next P c d) (g : Walk next P d e) : Walk next P c e := by
  induction g with
  | first hP => exact .step h hP
  | step _ hP ih => exact .step ih hP

end Walk

namespace Allocator

variable {a b : Allocator} {P : EntityId → Prop} {c d e x y z : EntityId}

/-! ## Cyclic distance -/

/-- How many steps it is from one id to another in cyclic order: all the way round to the same. -/
def ahead (a : Allocator) (c y : EntityId) : Nat := if c < y then y - c else y + a.space - c

theorem ahead_self (hc : a.first ≤ c ∧ c ≤ a.last) : a.ahead c c = a.space := by
  unfold ahead space EntityId at *
  rw [if_neg (Nat.lt_irrefl c)]
  omega

theorem ahead_le_space (hc : a.first ≤ c ∧ c ≤ a.last) (hy : a.first ≤ y ∧ y ≤ a.last) :
    a.ahead c y ≤ a.space := by
  unfold ahead space EntityId at *
  split <;> omega

theorem ahead_pos (hc : a.first ≤ c ∧ c ≤ a.last) (hy : a.first ≤ y ∧ y ≤ a.last) :
    1 ≤ a.ahead c y := by
  unfold ahead space EntityId at *
  split <;> omega

theorem ahead_inj (hc : a.first ≤ c ∧ c ≤ a.last) (hy : a.first ≤ y ∧ y ≤ a.last)
    (hz : a.first ≤ z ∧ z ≤ a.last) (h : a.ahead c y = a.ahead c z) : y = z := by
  unfold ahead space EntityId at *
  split at h <;> split at h <;> omega

/-- The next id is one step farther away, and one step away if it follows the start. -/
theorem ahead_following (hc : a.first ≤ c ∧ c ≤ a.last) (hd : a.first ≤ d ∧ d ≤ a.last) :
    a.ahead c (a.following d) = if d = c then 1 else a.ahead c d + 1 := by
  unfold ahead following space EntityId at *
  split <;> split <;> split <;> (try split) <;> omega

/-- A walk in cyclic order has been at every id that is not farther ahead than its end. -/
theorem walk_reaches (h : Walk a.following P c d) (hc : a.first ≤ c ∧ c ≤ a.last) :
    (a.first ≤ d ∧ d ≤ a.last) ∧
      ∀ y, a.first ≤ y → y ≤ a.last → a.ahead c y ≤ a.ahead c d → P y := by
  have hordered : a.first ≤ a.last := Nat.le_trans hc.1 hc.2
  induction h with
  | first hP =>
      have hnext := following_mem hordered hc.1
      refine ⟨hnext, fun y hfirst hlast hy => ?_⟩
      rw [ahead_following hc hc, if_pos rfl] at hy
      have hone : a.ahead c y = a.ahead c (a.following c) := by
        rw [ahead_following hc hc, if_pos rfl]
        exact Nat.le_antisymm hy (ahead_pos hc ⟨hfirst, hlast⟩)
      rw [ahead_inj hc ⟨hfirst, hlast⟩ hnext hone]
      exact hP
  | @step d _ hP ih =>
      obtain ⟨hd, hbeen⟩ := ih
      have hnext := following_mem hordered hd.1
      refine ⟨hnext, fun y hfirst hlast hy => ?_⟩
      by_cases hnew : y = a.following d
      · rw [hnew]
        exact hP
      · -- any other id is not farther ahead than the walk has come before
        have hfar : a.ahead c y ≠ a.ahead c (a.following d) :=
          fun heq => hnew (ahead_inj hc ⟨hfirst, hlast⟩ hnext heq)
        have hpositive := ahead_pos hc ⟨hfirst, hlast⟩
        rw [ahead_following hc hd] at hy hfar
        refine hbeen y hfirst hlast ?_
        by_cases hback : d = c
        · rw [if_pos hback] at hy hfar
          omega
        · rw [if_neg hback] at hy hfar
          omega

/-- A walk in cyclic order that returns to its start has been at every id. -/
theorem walk_everywhere (h : Walk a.following P c c) (hc : a.first ≤ c ∧ c ≤ a.last)
    (hy : a.first ≤ y ∧ y ≤ a.last) : P y := by
  refine (walk_reaches h hc).2 y hy.1 hy.2 ?_
  rw [ahead_self hc]
  exact ahead_le_space hc hy

/-! ## What a search passes -/

/-- The ids that a search comes to, the one that it finds included. -/
def tried (a : Allocator) : Nat → EntityId → List EntityId
  | 0, _ => []
  | tries + 1, candidate =>
    if candidate ∈ a.live then candidate :: tried a tries (a.following candidate) else [candidate]

/-- The ids that the next allocation passes, the one that it issues included. -/
def passed (a : Allocator) : List EntityId := a.tried (a.live.size + 1) a.start

/-- An id that a search comes to is live, or it is the one that is found. -/
theorem live_or_found {tries : Nat} {candidate : EntityId}
    (h : a.search tries candidate = some e) (hy : y ∈ a.tried tries candidate) :
    y = e ∨ y ∈ a.live := by
  induction tries generalizing candidate with
  | zero => cases h
  | succ tries ih =>
      unfold search at h
      unfold tried at hy
      split at h
      · rename_i hlive
        rw [if_pos hlive] at hy
        rcases List.mem_cons.1 hy with rfl | hrest
        · exact Or.inr hlive
        · exact ih h hrest
      · rename_i hfree
        rw [if_neg hfree] at hy
        exact Or.inl ((List.mem_singleton.1 hy).trans (Option.some.inj h))

/-- A search is a walk over the ids that it comes to. -/
theorem walk_of_search {tries : Nat} (h : a.search tries (a.following c) = some e) :
    Walk a.following (· ∈ a.tried tries (a.following c)) c e := by
  induction tries generalizing c with
  | zero => cases h
  | succ tries ih =>
      unfold search at h
      unfold tried
      split at h
      · rename_i hlive
        rw [if_pos hlive]
        refine (Walk.first List.mem_cons_self).trans ((ih h).mono fun y hy => ?_)
        exact List.mem_cons_of_mem _ hy
      · rename_i hfree
        rw [if_neg hfree, ← Option.some.inj h]
        exact .first (List.mem_singleton.2 rfl)

/-- An allocation takes the id that was issued last along a walk over what it passes. -/
theorem walk_of_allocate (h : a.allocate = .ok (e, b)) (hlast : a.lastIssued = some c) :
    Walk a.following (· ∈ a.passed) c e := by
  have hfound := (search_of_allocate h).1
  have hstart : a.start = a.following c := by
    unfold start
    rw [hlast]
  unfold passed
  rw [hstart] at hfound ⊢
  exact walk_of_search hfound

theorem live_or_issued (h : a.allocate = .ok (e, b)) (hy : y ∈ a.passed) : y = e ∨ y ∈ a.live :=
  live_or_found (search_of_allocate h).1 hy

/-! ## Runs -/

/-- What may be asked of an allocator. -/
inductive Call where
  /-- Issue an id. -/
  | allocate
  /-- Make an id free for reuse. -/
  | release (e : EntityId)
  deriving DecidableEq

/-- The allocator after a call; an allocation that fails leaves it. -/
def serve (a : Allocator) : Call → Allocator
  | .allocate =>
    match a.allocate with
    | .ok (_, b) => b
    | .error _ => a
  | .release e => (a.release e).1

/-- The allocator after one call and another. -/
def run (a : Allocator) (calls : List Call) : Allocator := calls.foldl serve a

/-- The next allocation returns an id. -/
def Issues (a : Allocator) (e : EntityId) : Prop := ∃ b, a.allocate = .ok (e, b)

theorem run_append (a : Allocator) (calls more : List Call) :
    a.run (calls ++ more) = (a.run calls).run more :=
  List.foldl_append

theorem serve_of_issues (h : a.Issues e) :
    a.serve .allocate = { a with lastIssued := some e, live := a.live.insert e } := by
  obtain ⟨b, hb⟩ := h
  unfold serve
  rw [hb]
  exact (allocate_eq_ok hb).2

/-- What a call can do. -/
theorem serve_cases (a : Allocator) (call : Call) :
    (∃ e, call = .allocate ∧ a.Issues e) ∨ (call = .allocate ∧ a.serve call = a) ∨
      ∃ e, call = .release e ∧ a.serve call = { a with live := a.live.erase e } := by
  cases call with
  | allocate =>
      cases hresult : a.allocate with
      | ok issued => exact Or.inl ⟨issued.1, rfl, issued.2, hresult⟩
      | error cause =>
          refine Or.inr (Or.inl ⟨rfl, ?_⟩)
          unfold serve
          rw [hresult]
  | release e => exact Or.inr (Or.inr ⟨e, rfl, rfl⟩)

/-- A call issues an id, or the id that was issued last stays the same. -/
theorem issues_or_keeps (a : Allocator) (call : Call) :
    (∃ e, call = .allocate ∧ a.Issues e) ∨ (a.serve call).lastIssued = a.lastIssued := by
  rcases serve_cases a call with hissues | ⟨-, hsame⟩ | ⟨e, -, hreleased⟩
  · exact Or.inl hissues
  · exact Or.inr (by rw [hsame])
  · exact Or.inr (by rw [hreleased])

theorem Ranged.serve (h : a.Ranged) (call : Call) : (a.serve call).Ranged := by
  rcases serve_cases a call with ⟨e, rfl, hissues⟩ | ⟨-, hsame⟩ | ⟨e, -, hreleased⟩
  · obtain ⟨b, hb⟩ := hissues
    rw [serve_of_issues ⟨b, hb⟩, ← (allocate_eq_ok hb).2]
    exact h.allocate hb
  · rw [hsame]
    exact h
  · rw [hreleased]
    exact h.release e

theorem Ranged.run (h : a.Ranged) (calls : List Call) : (a.run calls).Ranged := by
  induction calls generalizing a with
  | nil => exact h
  | cons call rest ih => exact ih (h.serve call)

/-- No call changes the range. -/
theorem range_serve (a : Allocator) (call : Call) :
    (a.serve call).first = a.first ∧ (a.serve call).last = a.last := by
  rcases serve_cases a call with ⟨e, rfl, hissues⟩ | ⟨-, hsame⟩ | ⟨e, -, hreleased⟩
  · rw [serve_of_issues hissues]
    exact ⟨rfl, rfl⟩
  · rw [hsame]
    exact ⟨rfl, rfl⟩
  · rw [hreleased]
    exact ⟨rfl, rfl⟩

theorem range_run (a : Allocator) (calls : List Call) :
    (a.run calls).first = a.first ∧ (a.run calls).last = a.last := by
  induction calls generalizing a with
  | nil => exact ⟨rfl, rfl⟩
  | cons call rest ih =>
      have hrest := ih (a := a.serve call)
      have hcall := range_serve a call
      exact ⟨hrest.1.trans hcall.1, hrest.2.trans hcall.2⟩

theorem following_congr (h : b.first = a.first ∧ b.last = a.last) : b.following = a.following := by
  funext e
  unfold following
  rw [h.1, h.2]

/-- Among some calls there is an allocation that passes an id, which it issues or finds live. -/
def Passes (a : Allocator) (calls : List Call) (y : EntityId) : Prop :=
  ∃ past rest e, calls = past ++ .allocate :: rest ∧ (a.run past).Issues e ∧
    y ∈ (a.run past).passed ∧ (y = e ∨ y ∈ (a.run past).live)

theorem Passes.append {calls : List Call} (h : a.Passes calls y) (more : List Call) :
    a.Passes (calls ++ more) y := by
  obtain ⟨past, rest, e, rfl, h⟩ := h
  exact ⟨past, rest ++ more, e, List.append_assoc past (.allocate :: rest) more, h⟩

theorem Passes.cons {call : Call} {calls : List Call} (h : (a.serve call).Passes calls y) :
    a.Passes (call :: calls) y := by
  obtain ⟨past, rest, e, rfl, h⟩ := h
  exact ⟨call :: past, rest, e, rfl, h⟩

/-- Calls take the id that was issued last along a walk over what their allocations pass, or leave
it. -/
theorem walk_of_run (calls : List Call) (hlast : a.lastIssued = some c) :
    ∃ d, (a.run calls).lastIssued = some d ∧ (d = c ∨ Walk a.following (a.Passes calls) c d) := by
  induction calls generalizing a c with
  | nil => exact ⟨c, hlast, Or.inl rfl⟩
  | cons call rest ih =>
      have hsame : (a.serve call).following = a.following := following_congr (range_serve a call)
      have hmore : ∀ y, (a.serve call).Passes rest y → a.Passes (call :: rest) y :=
        fun y => Passes.cons
      rcases issues_or_keeps a call with ⟨e, rfl, hissues⟩ | hkept
      · -- the call is an allocation, and the walk goes on from what it issues
        have hissued : (a.serve .allocate).lastIssued = some e := by
          rw [serve_of_issues hissues]
        obtain ⟨b, hb⟩ := hissues
        have hhere : Walk a.following (a.Passes (.allocate :: rest)) c e :=
          (walk_of_allocate hb hlast).mono fun y hy =>
            ⟨[], rest, e, rfl, ⟨b, hb⟩, hy, live_or_issued hb hy⟩
        obtain ⟨d, hd, hwalk⟩ := ih hissued
        refine ⟨d, hd, Or.inr ?_⟩
        rcases hwalk with rfl | hwalk
        · exact hhere
        · rw [hsame] at hwalk
          exact hhere.trans (hwalk.mono hmore)
      · obtain ⟨d, hd, hwalk⟩ := ih (hkept.trans hlast)
        rw [hsame] at hwalk
        exact ⟨d, hd, hwalk.imp id fun h => h.mono hmore⟩

/-- A live id stays live until it is released. -/
theorem live_of_run {calls : List Call} (hx : x ∈ a.live) (hkept : .release x ∉ calls) :
    x ∈ (a.run calls).live := by
  induction calls generalizing a with
  | nil => exact hx
  | cons call rest ih =>
      obtain ⟨hcall, hrest⟩ := not_or.1 (mt List.mem_cons.2 hkept)
      refine ih (a := a.serve call) ?_ hrest
      rcases serve_cases a call with ⟨e, rfl, hissues⟩ | ⟨-, hsame⟩ | ⟨e, rfl, hreleased⟩
      · rw [serve_of_issues hissues]
        exact IdSet.mem_insert.2 (Or.inr hx)
      · rw [hsame]
        exact hx
      · rw [hreleased]
        refine IdSet.mem_erase.2 ⟨hx, ?_⟩
        rintro rfl
        exact hcall rfl

/-- If two allocations return the same id, then it was released in between, and every other id of the
range was passed by an allocation after the first and not after the second, which issued it or found
it live. -/
theorem reissued_after_cycle (config : ManagerConfig) (hrange : config.first ≤ config.last)
    (before between : List Call) {x : EntityId}
    (hfirst : ((ofConfig config).run before).Issues x)
    (hagain : ((ofConfig config).run (before ++ .allocate :: between)).Issues x) :
    .release x ∈ between ∧ ∀ y, config.first ≤ y → y ≤ config.last →
      (((ofConfig config).run before).serve .allocate).Passes (between ++ [.allocate]) y := by
  have hranged := ((ranged_ofConfig hrange).run before).serve .allocate
  rw [run_append] at hagain
  replace hagain : ((((ofConfig config).run before).serve .allocate).run between).Issues x := hagain
  have hissued := serve_of_issues hfirst
  have hends := range_serve ((ofConfig config).run before) .allocate
  have hconfig := range_run (ofConfig config) before
  generalize ((ofConfig config).run before).serve .allocate = a at *
  have hlast : a.lastIssued = some x := by rw [hissued]
  obtain ⟨b, hb⟩ := hagain
  constructor
  · have hlive : x ∈ a.live := by
      rw [hissued]
      exact IdSet.mem_insert.2 (Or.inl rfl)
    have hfree := (allocate_eq_ok hb).1
    exact Classical.byContradiction fun hkept => hfree (live_of_run hlive hkept)
  · intro y hlow hhigh
    obtain ⟨d, hd, hwalk⟩ := walk_of_run between hlast
    -- the last allocation closes the walk
    have hclosing : Walk a.following (a.Passes (between ++ [.allocate])) d x := by
      have hstep := walk_of_allocate hb hd
      rw [following_congr (range_run a between)] at hstep
      refine hstep.mono fun z hz => ?_
      exact ⟨between, [], x, rfl, ⟨b, hb⟩, hz, live_or_issued hb hz⟩
    have hround : Walk a.following (a.Passes (between ++ [.allocate])) x x := by
      rcases hwalk with rfl | hwalk
      · exact hclosing
      · exact (hwalk.mono fun z hz => hz.append [.allocate]).trans hclosing
    refine walk_everywhere hround (hranged.issued x hlast) ⟨?_, ?_⟩
    · rw [hends.1, hconfig.1]
      exact hlow
    · rw [hends.2, hconfig.2]
      exact hhigh

/-- An id is released and issued again at once, since the two others of the range are live: the
search passes both of them. -/
theorem reissued_past_live_ids :
    let before : List Call := [.allocate, .allocate, .release 1, .allocate]
    let a := (ofConfig ⟨1, 3⟩).run before
    a.Issues 1 ∧ ((ofConfig ⟨1, 3⟩).run (before ++ .allocate :: [.release 1])).Issues 1 ∧
      (a.serve .allocate).Passes ([.release 1] ++ [.allocate]) 2 ∧
      (a.serve .allocate).Passes ([.release 1] ++ [.allocate]) 3 := by
  intro before a
  have hfirst : a.Issues 1 := ⟨_, rfl⟩
  have hagain : ((ofConfig ⟨1, 3⟩).run (before ++ .allocate :: [.release 1])).Issues 1 := ⟨_, rfl⟩
  obtain ⟨-, hpassed⟩ :=
    reissued_after_cycle ⟨1, 3⟩ (by decide) before [.release 1] hfirst hagain
  exact ⟨hfirst, hagain, hpassed 2 (by decide) (by decide), hpassed 3 (by decide) (by decide)⟩

end Allocator

end EntityStore
