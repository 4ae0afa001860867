import EntityStore.Proofs.Session.Membership

/-!
# Creations that are given up

A creation that fails is undone: who is live, who is due for removal, who holds what and every
value are as before (`rollback_of_reachesUnder`).

Groups are as before with one exception, and this is exactly when the exception comes up.  While the
kinds are taken away again, the entity is tested without them; and if it then passes the filter of a
group, as it does when nothing is required and a kind that it held for a moment is forbidden, then
it joins the group and stays, although its id is free again (`stray_after_refused_kind`).
-/

namespace EntityStore

variable [Host]

open World

variable {w v : World}

namespace World

/-- A creation that is given up leaves its entity in the group: it was not a member, but passes the
filter without the new kinds, and one of those that it was given for a moment matters there. -/
def Strays (w : World) (e : EntityId) (kinds : List KindId) (g : Group) : Prop :=
  e ∉ g.members ∧ g.filter.accepts (fun k => w.holds k e) = true ∧
    ∃ k ∈ kinds.takeWhile (w.takes e), g.filter.mentions k = true

omit [Host] in
/-- A test of an entity that passes if it is a member changes nothing, unless it lets it in. -/
theorem recheck_eq_self_iff {g : Group} {e : EntityId} {kinds : List KindId}
    {holds : KindId → Bool} (hsound : e ∈ g.members → g.filter.accepts holds = true) :
    g.recheck e kinds holds = g ↔
      ¬ (e ∉ g.members ∧ g.filter.accepts holds = true ∧
        ∃ k ∈ kinds, g.filter.mentions k = true) := by
  rw [← List.any_eq_true]
  unfold Group.recheck
  cases hany : kinds.any g.filter.mentions with
  | false => simp
  | true =>
      rw [if_pos rfl]
      cases haccepts : g.filter.accepts holds with
      | false =>
          -- who does not pass was not a member either, and cannot leave
          have hout : e ∉ g.members := by
            intro hmem
            rw [hsound hmem] at haccepts
            cases haccepts
          rw [show g.refresh e false = g from Group.leave_of_not_mem hout]
          simp
      | true =>
          show g.join e = g ↔ _
          by_cases hmem : e ∈ g.members
          · simp [Group.join_of_mem hmem, hmem]
          · simp only [hmem, not_false_eq_true, and_self, not_true_eq_false, iff_false]
            intro hsame
            have hjoined : e ∈ (g.join e).members := Group.mem_join.2 (Or.inl rfl)
            rw [hsame] at hjoined
            exact hmem hjoined

omit [Host] in
theorem map_eq_self_iff {α : Type} {f : α → α} {l : List α} : l.map f = l ↔ ∀ x ∈ l, f x = x := by
  induction l with
  | nil => simp
  | cons x rest ih => simp [ih]

/-- How a creation fails. -/
theorem create_error (hw : w.Wired) {m : ManagerId} {kinds : List KindId} {cause : ManagerError}
    (h : w.create m kinds = (v, .error cause)) :
    (v = w ∧ ∀ reason, cause ≠ .store reason) ∨
    ∃ e a u changed reason, cause = .store reason ∧ m.place < w.managers.length ∧
      (w.manager m).allocator.allocate = .ok (e, a) ∧ v = u.release m e ∧
      (∀ k ∈ kinds, k ∈ (w.manager m).kinds) ∧
      (∀ k, k ∈ changed ↔ k ∈ kinds.takeWhile (w.takes e)) ∧
      Tracks (w.heard m) e changed (w.withAllocator m a) u ∧
      (∀ k ∈ changed, w.holds k e = false ∧ u.holds k e = false) ∧ u.Packed := by
  have hcreated := created hw m kinds
  rw [h] at hcreated
  cases hcreated with
  | refused cause hcause => exact Or.inl ⟨rfl, hcause⟩
  | undone e a u taken reason hmade hallocate hregistered htaken htracks hbefore hafter hpacked =>
      have hlisted : ∀ k, k ∈ kinds.takeWhile (w.takes e) ++ taken ↔
          k ∈ kinds.takeWhile (w.takes e) := by
        intro k
        rw [List.mem_append]
        exact ⟨fun hk => hk.elim id (htaken k), Or.inl⟩
      refine Or.inr ⟨e, a, u, _, reason, rfl, hmade, hallocate, rfl, hregistered, hlisted, htracks,
        ?_, hpacked⟩
      intro k hk
      exact ⟨hbefore k ((hlisted k).1 hk), hafter k ((hlisted k).1 hk)⟩

section Undone

variable {m : ManagerId} {e : EntityId} {a : Allocator} {u : World} {changed : List KindId}

/-- What a manager had before an id was issued and given back. -/
theorem field_undone {α : Type} (htracks : Tracks (w.heard m) e changed (w.withAllocator m a) u)
    (field : Manager → α)
    (hgroups : ∀ manager groups, field { manager with groups := groups } = field manager)
    (hallocator : ∀ manager allocator,
      field { manager with allocator := allocator } = field manager) (n : ManagerId) :
    field ((u.release m e).manager n) = field (w.manager n) := by
  have hrelease : field ((u.release m e).manager n) = field (u.manager n) := by
    refine field_updateManager field ?_ u m n
    exact fun manager => hallocator manager _
  have hissue : field ((w.withAllocator m a).manager n) = field (w.manager n) := by
    refine field_updateManager field ?_ w m n
    exact fun manager => hallocator manager _
  rw [hrelease, htracks.field_eq field hgroups, hissue]

theorem live_undone (hmade : m.place < w.managers.length)
    (hallocate : (w.manager m).allocator.allocate = .ok (e, a))
    (htracks : Tracks (w.heard m) e changed (w.withAllocator m a) u) (n : ManagerId) :
    ((u.release m e).manager n).allocator.live = (w.manager n).allocator.live := by
  have hlive := live_release_of_issued hmade hallocate (live_tracks htracks)
  -- sets of ids are known by their members, and who is live is a matter of members
  ext x
  have hx := congrFun (congrFun hlive n) x
  unfold live isAlive Allocator.isLive at hx
  rw [decide_eq_true_iff, decide_eq_true_iff] at hx
  exact iff_of_eq hx

theorem holds_undone (htracks : Tracks (w.heard m) e changed (w.withAllocator m a) u)
    (hnone : ∀ k ∈ changed, w.holds k e = false ∧ u.holds k e = false) : u.holds = w.holds := by
  ext k x
  rcases Tracks.touched_or_not e x k changed with ⟨rfl, hk⟩ | hsame
  · rw [(hnone k hk).1, (hnone k hk).2]
  · rw [htracks.holds_eq hsame]
    rfl

/-- Every value is as before, and what had none has none. -/
theorem get_undone (hw : w.Packed) (hpacked : u.Packed)
    (htracks : Tracks (w.heard m) e changed (w.withAllocator m a) u)
    (hnone : ∀ k ∈ changed, w.holds k e = false ∧ u.holds k e = false) (k : KindId) (p : Property)
    (x : EntityId) : p.get (u.kind k).store x = p.get (w.kind k).store x := by
  rcases Tracks.touched_or_not e x k changed with ⟨rfl, hk⟩ | hsame
  · -- the entity holds the kind neither before nor after, so both times the value is missing
    rw [Store.get_missing p (holds_eq_false.1 (hnone k hk).1),
      Store.get_missing p (holds_eq_false.1 (hnone k hk).2)]
    unfold Store.missing
    rw [(htracks.shape k).name]
    rfl
  · exact (htracks.undisturbed k x hsame).get_eq (hw k) (hpacked k) (htracks.shape k) p

/-- The groups of a manager that is still there have tested the entity, and the others are as
before. -/
theorem groups_undone_iff (hw : w.Wired)
    (htracks : Tracks (w.heard m) e changed (w.withAllocator m a) u) {kinds : List KindId}
    (hlisted : ∀ k, k ∈ changed ↔ k ∈ kinds.takeWhile (w.takes e))
    (hnone : ∀ k ∈ changed, w.holds k e = false ∧ u.holds k e = false) :
    (∀ n, ((u.release m e).manager n).groups = (w.manager n).groups) ↔
      ((w.manager m).retired = false → ∀ g ∈ (w.manager m).groups, ¬ w.Strays e kinds g) := by
  have hrelease : ∀ n, ((u.release m e).manager n).groups = (u.manager n).groups := by
    intro n
    refine field_updateManager Manager.groups ?_ u m n
    exact fun _ => rfl
  have hissue : ∀ n, ((w.withAllocator m a).manager n).groups = (w.manager n).groups := by
    intro n
    refine field_updateManager Manager.groups ?_ w m n
    exact fun _ => rfl
  -- a group is as before if and only if the entity does not stray into it
  have hgroup : (w.manager m).retired = false → ∀ g ∈ (w.manager m).groups,
      g.recheck e changed (fun k => u.holds k e) = g ↔ ¬ w.Strays e kinds g := by
    intro hpresent g hg
    rw [holds_undone htracks hnone, recheck_eq_self_iff (hw.sound m hpresent g hg e)]
    unfold Strays
    simp only [hlisted]
  have htold : (w.manager m).retired = false → ((u.release m e).manager m).groups =
      (w.manager m).groups.map fun g => g.recheck e changed fun k => u.holds k e := by
    intro hpresent
    rw [hrelease, htracks.told m (heard_eq_some.2 ⟨rfl, hpresent⟩)]
    dsimp only
    rw [hissue]
  constructor
  · intro hsame hpresent g hg
    rw [← hgroup hpresent g hg]
    have hmap := hsame m
    rw [htold hpresent] at hmap
    exact map_eq_self_iff.1 hmap g hg
  · intro hnobody n
    by_cases hn : w.heard m = some n
    · obtain ⟨rfl, hpresent⟩ := heard_eq_some.1 hn
      rw [htold hpresent, map_eq_self_iff]
      intro g hg
      exact (hgroup hpresent g hg).2 (hnobody hpresent g hg)
    · rw [hrelease, htracks.untold n hn, hissue]

end Undone

end World

namespace Session

/-- A creation that fails leaves nothing behind, but for the groups in which the entity strays. -/
theorem rollback_of_reachesUnder {s : Session} (h : ReachesUnder KindsMade start s) {m : ManagerId}
    {kinds : List KindId} {cause : ManagerError}
    (hfail : s.world.create m kinds = (v, .error cause)) :
    (∀ n, (v.manager n).allocator.live = (s.world.manager n).allocator.live) ∧
    (∀ n, (v.manager n).pending = (s.world.manager n).pending) ∧
    (∀ k, (v.kind k).store.holders = (s.world.kind k).store.holders) ∧
    (∀ k (p : Property) e, p.get (v.kind k).store e = p.get (s.world.kind k).store e) ∧
    ((∀ n, (v.manager n).groups = (s.world.manager n).groups) ↔
      ∀ reason e a, cause = .store reason → (s.world.manager m).retired = false →
        (s.world.manager m).allocator.allocate = .ok (e, a) →
        ∀ g ∈ (s.world.manager m).groups, ¬ s.world.Strays e kinds g) := by
  generalize hworld : s.world = w at hfail ⊢
  have hwired : w.Wired := by
    rw [← hworld]
    exact wired_of_reachesUnder (fun _ _ _ hrule => hrule) h
  rcases create_error hwired hfail with ⟨rfl, hcause⟩ |
    ⟨e, a, u, changed, reason, rfl, hmade, hallocate, rfl, hregistered, hlisted, htracks, hnone,
      hpacked⟩
  · refine ⟨fun _ => rfl, fun _ => rfl, fun _ => rfl, fun _ _ _ => rfl, fun _ => ?_, fun _ _ => rfl⟩
    intro reason e a hreason
    exact absurd hreason (hcause reason)
  · refine ⟨live_undone hmade hallocate htracks, ?_, ?_, ?_, ?_⟩
    · exact field_undone htracks Manager.pending (fun _ _ => rfl) fun _ _ => rfl
    · intro k
      ext x
      rw [← holds_eq_true, ← holds_eq_true]
      show u.holds k x = true ↔ _
      rw [holds_undone htracks hnone]
    · exact fun k p x => get_undone hwired.packed hpacked htracks hnone k p x
    · rw [groups_undone_iff hwired htracks hlisted hnone]
      constructor
      · intro hnobody reason e' a' _ hpresent hallocate'
        rw [hallocate] at hallocate'
        cases hallocate'
        exact hnobody hpresent
      · exact fun hnobody hpresent => hnobody reason e a rfl hpresent hallocate

end Session

end EntityStore

namespace EntityStore.Session

attribute [local instance] Host.plain

/-! ## Two creations that fail -/

/-- Requests that lead to a manager with two kinds, of which the second has no room for anybody, and
a group. -/
def crowded (required forbidden : List KindId) : List Request :=
  [.makeKind "A" .default,
    .makeKind "B" { StoreConfig.default with expectedCapacity := 9223372036854775807 },
    .declare ⟨1⟩ "x" (.word (.signed .w32)) (0 : BitVec 32) none, .makeManager .default,
    .registerKind ⟨0⟩ ⟨0⟩, .registerKind ⟨0⟩ ⟨1⟩, .openGroup ⟨0⟩ required forbidden]

theorem orderly_of_crowded (required forbidden : List KindId) :
    ReachesUnder Orderly start (start.afterAll (crowded required forbidden)) := by
  refine ReachesUnder.request ?_ rfl True.intro
  refine ReachesUnder.request ?_ (by decide +kernel) (by decide +kernel)
  refine ReachesUnder.request ?_ (by decide +kernel) (by decide +kernel)
  refine ReachesUnder.request ?_ (by decide +kernel) True.intro
  refine ReachesUnder.request ?_ rfl True.intro
  refine ReachesUnder.request ?_ rfl True.intro
  exact ReachesUnder.refl.request rfl True.intro

/-- A group that requires nothing and forbids the first kind keeps an entity that was never made. -/
theorem stray_after_refused_kind :
    let s := start.afterAll (crowded [] [⟨0⟩])
    let v := (s.world.create ⟨0⟩ [⟨0⟩, ⟨1⟩]).1
    ReachesUnder Orderly start s ∧ (s.world.create ⟨0⟩ [⟨0⟩, ⟨1⟩]).2.isOk = false ∧
      (s.world.manager ⟨0⟩).groups.map (·.members.toList) = [[]] ∧
      (v.manager ⟨0⟩).groups.map (·.members.toList) = [[1]] ∧ v.isAlive ⟨0⟩ 1 = false := by
  intro s v
  refine ⟨orderly_of_crowded [] [⟨0⟩], ?_, ?_, ?_, ?_⟩
  · decide +kernel
  · decide +kernel
  · decide +kernel
  · decide +kernel

/-- A group that requires the first kind has the entity for a moment, and no trace of it is left. -/
theorem rollback_of_refused_kind :
    let s := start.afterAll (crowded [⟨0⟩] [])
    let v := (s.world.create ⟨0⟩ [⟨0⟩, ⟨1⟩]).1
    ReachesUnder KindsMade start s ∧ (s.world.create ⟨0⟩ [⟨0⟩, ⟨1⟩]).2.isOk = false ∧
      ∀ n, (v.manager n).groups = (s.world.manager n).groups := by
  intro s v
  have h : ReachesUnder KindsMade start s := by
    refine (orderly_of_crowded [⟨0⟩] []).mono ?_
    intro w r hrule
    cases r with
    | registerKind m k => exact hrule.1
    | _ => exact True.intro
  have hrefused : (s.world.create ⟨0⟩ [⟨0⟩, ⟨1⟩]).2.isOk = false := by decide +kernel
  refine ⟨h, hrefused, ?_⟩
  cases hresult : s.world.create ⟨0⟩ [⟨0⟩, ⟨1⟩] with
  | mk u answer =>
      rw [hresult] at hrefused
      cases answer with
      | ok e => cases hrefused
      | error cause =>
          have hv : v = u := congrArg Prod.fst hresult
          rw [hv]
          refine (rollback_of_reachesUnder h hresult).2.2.2.2.2 ?_
          rintro reason e a - - hallocate g hg ⟨-, haccepts, -⟩
          have hissued : (s.world.manager ⟨0⟩).allocator.allocate.toOption.map Prod.fst = some 1 := by
            decide +kernel
          rw [hallocate] at hissued
          obtain rfl : e = 1 := Option.some.inj hissued
          have hrejected : ∀ g ∈ (s.world.manager ⟨0⟩).groups,
              g.filter.accepts (fun k => s.world.holds k 1) = false := by
            decide +kernel
          rw [hrejected g hg] at haccepts
          cases haccepts

end EntityStore.Session
